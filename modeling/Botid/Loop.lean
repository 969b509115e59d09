import Mathlib.Algebra.Group.Nat.Defs
import Mathlib.Data.Nat.Find
import Mathlib.Order.Basic

/-! While loops: a fuel that always suffices, and the unfolding that proofs use instead of it. Loops
that count a `size_t` up until a turn has the answer. -/
namespace Loop

variable {σ : Type*} {size : σ → Nat} {body : σ → σ × Bool} {s : σ}

/-- At most `n` turns; the body says whether another one follows. -/
def turns (body : σ → σ × Bool) : Nat → σ → σ
  | 0, s => s
  | n + 1, s => if (body s).2 then turns body n (body s).1 else (body s).1

/-- The loop over a body that leaves less to do whenever it asks for another turn. -/
def run (size : σ → Nat) (body : σ → σ × Bool) (s : σ) : σ := turns body (size s + 1) s

def Shrinks (size : σ → Nat) (body : σ → σ × Bool) : Prop :=
  ∀ s, (body s).2 = true → size (body s).1 < size s

theorem turns_of_shrinks (h : Shrinks size body) {n m : Nat} (hn : size s < n) (hm : size s < m) :
    turns body n s = turns body m s := by
  induction n generalizing s m with
  | zero => omega
  | succ n ih =>
    cases m with
    | zero => omega
    | succ m =>
      rw [turns, turns]
      split
      · have := h s ‹_›
        exact ih (by omega) (by omega)
      · rfl

/-- One turn, and then the loop again or its end. -/
theorem run_eq (h : Shrinks size body) :
    run size body s = if (body s).2 then run size body (body s).1 else (body s).1 := by
  rw [run, turns]
  split
  · have := h s ‹_›
    exact turns_of_shrinks h (by omega) (by omega)
  · rfl

theorem run_of_again (h : Shrinks size body) {s' : σ} (hs : body s = (s', true)) :
    run size body s = run size body s' := by
  rw [run_eq h, hs, if_pos rfl]

theorem run_of_done (h : Shrinks size body) {s' : σ} (hs : body s = (s', false)) :
    run size body s = s' := by
  rw [run_eq h, hs, if_neg (by simp)]

/-- What every turn preserves holds when the loop ends. -/
theorem run_invariant {I : σ → Prop} (hbody : ∀ s, I s → I (body s).1) (hs : I s) :
    I (run size body s) := by
  rw [run]
  generalize size s + 1 = n
  induction n generalizing s with
  | zero => exact hs
  | succ n ih =>
    rw [turns]
    split
    · exact ih (hbody s hs)
    · exact hbody s hs

/-- What every turn that another one follows preserves, and what the last one makes of it. -/
theorem run_ends {I Q : σ → Prop} (h : Shrinks size body)
    (hagain : ∀ s, I s → (body s).2 = true → I (body s).1)
    (hdone : ∀ s, I s → (body s).2 = false → Q (body s).1) (hs : I s) : Q (run size body s) := by
  induction hn : size s using Nat.strong_induction_on generalizing s with
  | h n ih =>
    subst hn
    rw [run_eq h]
    cases hb : (body s).2 with
    | true => exact ih _ (h s hb) (hagain s hs hb) rfl
    | false => exact hdone s hs hb

/-- A loop seen through `f` is the loop over what `f` shows, turn for turn. -/
theorem run_commute {τ : Type*} {size' : τ → Nat} {body' : τ → τ × Bool} {f : σ → τ}
    (hsize : ∀ s, size' (f s) = size s) (hbody : ∀ s, body' (f s) = (f (body s).1, (body s).2)) :
    run size' body' (f s) = f (run size body s) := by
  rw [run, run, hsize]
  generalize size s + 1 = n
  induction n generalizing s with
  | zero => rfl
  | succ n ih =>
    rw [turns, turns, hbody]
    cases (body s).2 with
    | true => exact ih
    | false => rfl

variable {ε α : Type*} {stuck : ε} {turn : Nat → Except ε (Option α)} {fuel n i : Nat} {a : α}

/-- `for (;; ++i)` over a turn that may fail, and that leaves the loop once it has an answer; `stuck`
after `fuel` turns. -/
def upward (stuck : ε) (turn : Nat → Except ε (Option α)) : Nat → Nat → Except ε α
  | 0, _ => .error stuck
  | fuel + 1, i => do
    match ← turn i with
    | some a => pure a
    | none => upward stuck turn fuel ((i + 1) % 2 ^ 64)

theorem upward_eq (hn : n < 2 ^ 64) (hin : i ≤ n) (hfuel : n - i < fuel)
    (hpass : ∀ k, i ≤ k → k < n → turn k = .ok none) (hanswer : turn n = .ok (some a)) :
    upward stuck turn fuel i = .ok a := by
  induction fuel generalizing i with
  | zero => omega
  | succ fuel ih =>
    rw [upward]
    rcases Nat.lt_or_eq_of_le hin with hlt | rfl
    · rw [hpass i le_rfl hlt]
      change upward stuck turn fuel ((i + 1) % 2 ^ 64) = .ok a
      rw [Nat.mod_eq_of_lt (by omega)]
      exact ih hlt (by omega) fun k hk => hpass k (by omega)
    · rw [hanswer]
      rfl

/-- The loop stops at the first of `n` places with a property, or has passed them all. -/
theorem upward_first {P : Nat → Prop} {hit : Nat → α} (hn : n < 2 ^ 64) (hfuel : n < fuel)
    (hturn : ∀ k < n, P k ∧ turn k = .ok (some (hit k)) ∨ ¬ P k ∧ turn k = .ok none)
    (hend : turn n = .ok (some a)) :
    (∃ k < n, P k ∧ (∀ j < k, ¬ P j) ∧ upward stuck turn fuel 0 = .ok (hit k)) ∨
      (∀ k < n, ¬ P k) ∧ upward stuck turn fuel 0 = .ok a := by
  classical
  have hpass : ∀ k < n, ¬ P k → turn k = .ok none := by
    intro k hk hP
    rcases hturn k hk with ⟨hPk, -⟩ | ⟨-, heq⟩
    · exact absurd hPk hP
    · exact heq
  by_cases hfound : ∃ k, k < n ∧ P k
  · obtain ⟨k, ⟨hk, hP⟩, hmin⟩ : ∃ k, (k < n ∧ P k) ∧ ∀ j < k, ¬ (j < n ∧ P j) :=
      ⟨Nat.find hfound, Nat.find_spec hfound, fun _ => Nat.find_min hfound⟩
    have hbefore : ∀ j < k, ¬ P j := fun j hj hPj => hmin j hj ⟨hj.trans hk, hPj⟩
    refine Or.inl ⟨k, hk, hP, hbefore, ?_⟩
    refine upward_eq (n := k) (by omega) (Nat.zero_le _) (by omega) (fun j _ hj => ?_) ?_
    · exact hpass j (hj.trans hk) (hbefore j hj)
    · rcases hturn k hk with ⟨-, heq⟩ | ⟨hnot, -⟩
      · exact heq
      · exact absurd hP hnot
  · have hnone : ∀ k < n, ¬ P k := fun k hk hP => hfound ⟨k, hk, hP⟩
    refine Or.inr ⟨hnone, upward_eq hn (Nat.zero_le _) (by omega) (fun k _ hk => ?_) hend⟩
    exact hpass k hk (hnone k hk)

end Loop
