import Mathlib.Data.List.Basic

/-! Logs that spend from a budget: a reset restores it, and after a stop nothing is spent. -/
namespace Budget

inductive Kind
  | reset
  | spend
  | stop
  | other
  deriving DecidableEq

variable {ε : Type*} {kind : ε → Kind} {max n : Nat} {stopped : Bool} {es pre seg post : List ε}

/-- The log stays within what is left, from here on. -/
def Within (kind : ε → Kind) (max : Nat) : Nat → Bool → List ε → Prop
  | _, _, [] => True
  | n, stopped, e :: es =>
    match kind e with
    | .reset => Within kind max max false es
    | .spend => 0 < n ∧ stopped = false ∧ Within kind max (n - 1) false es
    | .stop => Within kind max n true es
    | .other => Within kind max n stopped es

/-- How often the log spends. -/
def spent (kind : ε → Kind) (es : List ε) : Nat := es.countP fun e => kind e = .spend

/-- Behind any part of the log there is a rest within some budget. -/
theorem Within.drop (h : Within kind max n stopped (pre ++ es)) (hn : n ≤ max) :
    ∃ m stopped', m ≤ max ∧ Within kind max m stopped' es := by
  induction pre generalizing n stopped with
  | nil => exact ⟨n, stopped, hn, h⟩
  | cons e pre ih =>
    rw [List.cons_append, Within] at h
    cases hk : kind e with
    | reset =>
      rw [hk] at h
      exact ih h (Nat.le_refl max)
    | spend =>
      rw [hk] at h
      exact ih h.2.2 (by omega)
    | stop =>
      rw [hk] at h
      exact ih h hn
    | other =>
      rw [hk] at h
      exact ih h hn

/-- Without a reset the log spends at most what is left, and nothing once it is stopped. -/
theorem Within.spent_le (h : Within kind max n stopped (seg ++ post))
    (hseg : ∀ e ∈ seg, kind e ≠ .reset) :
    spent kind seg ≤ n ∧ (stopped = true → spent kind seg = 0) := by
  induction seg generalizing n stopped with
  | nil => simp [spent]
  | cons e seg ih =>
    have hrest : ∀ e ∈ seg, kind e ≠ .reset := fun e' he' => hseg e' (List.mem_cons_of_mem e he')
    rw [List.cons_append, Within] at h
    rw [spent, List.countP_cons, ← spent]
    cases hk : kind e with
    | reset => exact absurd hk (hseg e List.mem_cons_self)
    | spend =>
      rw [hk] at h
      obtain ⟨hn, hs, h⟩ := h
      have hle := (ih h hrest).1
      simp only [decide_true, if_true]
      refine ⟨by omega, ?_⟩
      intro h1
      rw [hs] at h1
      cases h1
    | stop =>
      rw [hk] at h
      obtain ⟨hle, hzero⟩ := ih h hrest
      simpa using ⟨hle, fun _ => hzero rfl⟩
    | other =>
      rw [hk] at h
      simpa using ih h hrest

/-- Every part of the log without a reset stays within the budget, and spends nothing behind a stop. -/
theorem Within.segment (h : Within kind max n stopped (pre ++ (seg ++ post))) (hn : n ≤ max)
    (hseg : ∀ e ∈ seg, kind e ≠ .reset) : spent kind seg ≤ max ∧
      ∀ a e b, seg = a ++ e :: b → kind e = .stop → ∀ d ∈ b, kind d ≠ .spend := by
  constructor
  · obtain ⟨m, stopped', hm, hrest⟩ := h.drop hn
    exact Nat.le_trans (hrest.spent_le hseg).1 hm
  · rintro a e b rfl hstop d hd hspend
    rw [List.append_assoc, ← List.append_assoc] at h
    obtain ⟨m, stopped', -, hrest⟩ := h.drop hn
    rw [List.cons_append, Within, hstop] at hrest
    have hb : ∀ e ∈ b, kind e ≠ .reset := fun e' he' =>
      hseg e' (List.mem_append_right _ (List.mem_cons_of_mem _ he'))
    have hzero := (hrest.spent_le hb).2 rfl
    rw [spent, List.countP_eq_zero] at hzero
    exact hzero d hd (by simpa using hspend)

end Budget
