import Botid.BotInfo

/-! Which identity `GetFree` hands out: soundness, completeness and what it leaves alone. -/
namespace Botid

variable {active : Int → Bool} {bots bots' : List BotIdentity} {r r' : Rand} {i j : Nat}
  {b : BotIdentity}

/-- No other assigned entry has the name of entry `i` or its non-zero SteamID64. -/
def Assignable (bots : List BotIdentity) (i : Nat) (b : BotIdentity) : Prop :=
  ∀ j c, bots[j]? = some c → j ≠ i → 0 ≤ c.slot →
    c.name ≠ b.name ∧ (b.steamId ≠ 0 → c.steamId ≠ b.steamId)

/-- The entry's slot is unassigned, out of range, or reported inactive. -/
def Idle (active : Int → Bool) (b : BotIdentity) : Prop :=
  b.slot < 0 ∨ 64 ≤ b.slot ∨ active b.slot = false

/-- An entry `GetFree` may hand out. -/
def Eligible (active : Int → Bool) (bots : List BotIdentity) (i : Nat) : Prop :=
  ∃ b, bots[i]? = some b ∧ Assignable bots i b ∧ Idle active b

/-- An unassigned entry that is assignable. -/
def Unassigned (bots : List BotIdentity) (i : Nat) : Prop :=
  ∃ b, bots[i]? = some b ∧ b.slot < 0 ∧ Assignable bots i b

theorem isFree_iff : isFree bots i = true ↔ Unassigned bots i := by
  rw [isFree, Unassigned]
  cases hb : bots[i]? with
  | none => simp
  | some b => simp [isAssignable_iff hb, Assignable]

theorem isRecyclable_iff : isRecyclable active bots i = true ↔ Eligible active bots i := by
  rw [isRecyclable, Eligible]
  cases hb : bots[i]? with
  | none => simp
  | some b =>
    simp only [Bool.or_eq_true, Bool.and_eq_true, decide_eq_true_eq, Bool.not_eq_true',
      isAssignable_iff hb, Option.some.injEq, exists_eq_left']
    constructor
    · rintro (⟨hs | hs, ha⟩ | ⟨⟨-, hs⟩, ha⟩)
      · exact ⟨ha, Or.inl hs⟩
      · exact ⟨ha, Or.inr (Or.inl hs)⟩
      · exact ⟨ha, Or.inr (Or.inr hs)⟩
    · rintro ⟨ha, hs | hs | hs⟩
      · exact Or.inl ⟨Or.inl hs, ha⟩
      · exact Or.inl ⟨Or.inr hs, ha⟩
      · by_cases hr : b.slot < 0 ∨ 64 ≤ b.slot
        · exact Or.inl ⟨hr, ha⟩
        · exact Or.inr ⟨⟨by omega, hs⟩, ha⟩

theorem Unassigned.eligible (h : Unassigned bots i) : Eligible active bots i := by
  obtain ⟨b, hb, hs, ha⟩ := h
  exact ⟨b, hb, ha, Or.inl hs⟩

theorem lt_length_of_eligible (h : Eligible active bots i) : i < bots.length := by
  obtain ⟨b, hb, -⟩ := h
  exact (List.getElem?_eq_some_iff.mp hb).1

/-- The entries the counting pass and the selection pass agree on. -/
def freeEntries (bots : List BotIdentity) : List Nat :=
  (List.range bots.length).filter (isFree bots)

theorem mem_freeEntries : i ∈ freeEntries bots ↔ Unassigned bots i := by
  rw [freeEntries, List.mem_filter, List.mem_range, isFree_iff]
  constructor
  · exact fun h => h.2
  · intro h
    obtain ⟨b, hb, hs⟩ := h
    exact ⟨(List.getElem?_eq_some_iff.mp hb).1, b, hb, hs⟩

theorem length_freeEntries_le (bots : List BotIdentity) :
    (freeEntries bots).length ≤ bots.length := by
  have hle := List.length_filter_le (isFree bots) (List.range bots.length)
  rwa [List.length_range] at hle

/-- With a free entry about, the draw picks one of them and the pool stays as it is. -/
theorem getFree_of_unassigned (h : Unassigned bots i) : getFree active bots r =
    ((freeEntries bots)[r.value % (freeEntries bots).length]?, bots, r.next) := by
  have hpos : 0 < (freeEntries bots).length := List.length_pos_of_mem (mem_freeEntries.mpr h)
  rw [getFree]
  exact if_pos hpos

/-- Without one, the first eligible entry is reset and handed out. -/
theorem getFree_of_none_unassigned (h : ∀ i, ¬ Unassigned bots i) : getFree active bots r =
    match (List.range bots.length).find? (isRecyclable active bots) with
    | some i => (some i, bots.modify i resetForReuse, r)
    | none => (none, bots, r) := by
  have hnil : freeEntries bots = [] := by
    apply List.eq_nil_iff_forall_not_mem.mpr
    intro i hi
    exact h i (mem_freeEntries.mp hi)
  rw [getFree]
  apply if_neg
  rw [← freeEntries, hnil]
  simp

theorem getFree_eq_none_iff :
    (getFree active bots r).1 = none ↔ ∀ i, ¬ Eligible active bots i := by
  by_cases hfree : ∃ i, Unassigned bots i
  · obtain ⟨i, hi⟩ := hfree
    have hpos : 0 < (freeEntries bots).length := List.length_pos_of_mem (mem_freeEntries.mpr hi)
    rw [getFree_of_unassigned hi]
    have hlt := Nat.mod_lt r.value hpos
    simp only [List.getElem?_eq_none_iff]
    constructor
    · intro h
      omega
    · intro h
      exact absurd hi.eligible (h i)
  · rw [getFree_of_none_unassigned (fun i hi => hfree ⟨i, hi⟩)]
    cases hf : (List.range bots.length).find? (isRecyclable active bots) with
    | none =>
      simp only [true_iff]
      intro i hi
      rw [List.find?_eq_none] at hf
      exact hf i (List.mem_range.mpr (lt_length_of_eligible hi)) (isRecyclable_iff.mpr hi)
    | some i =>
      simp only [reduceCtorEq, false_iff, not_forall, not_not]
      exact ⟨i, isRecyclable_iff.mp (List.find?_some hf)⟩

/-- An entry handed out was eligible, is unassigned now, and is the only one that can have changed. -/
theorem getFree_eq_some (h : getFree active bots r = (some i, bots', r')) :
    Eligible active bots i ∧ (∃ b, bots'[i]? = some b ∧ b.slot < 0) ∧
      (∀ j, j ≠ i → bots'[j]? = bots[j]?) ∧
      ((∃ j, Unassigned bots j) → Unassigned bots i ∧ bots' = bots) := by
  obtain ⟨b, hb, ha, ⟨hs, rfl⟩ | ⟨rfl, hnone, hs⟩⟩ := getFree_some h
  · rw [isAssignable_iff hb] at ha
    exact ⟨⟨b, hb, ha, Or.inl hs⟩, ⟨b, hb, hs⟩, fun _ _ => rfl, fun _ => ⟨⟨b, hb, hs, ha⟩, rfl⟩⟩
  · rw [isAssignable_iff hb] at ha
    refine ⟨⟨b, hb, ha, hs⟩, ⟨resetForReuse b, ?_, by simp [resetForReuse]⟩, ?_, ?_⟩
    · exact getElem?_modify_eq_some.mpr ⟨b, hb, by simp⟩
    · intro j hj
      rw [List.getElem?_modify_ne _ _ hj.symm]
    · rintro ⟨j, hj⟩
      have hfree := hnone j
      rw [isFree_iff.mpr hj] at hfree
      exact absurd hfree (by simp)

/-- Every free entry has its turn at some draw below the pool's size. -/
theorem getFree_reaches (h : Unassigned bots i) : ∃ v, v < bots.length ∧
    (getFree active bots { r with draws := fun _ => v }).1 = some i := by
  obtain ⟨v, hv, hi⟩ := List.mem_iff_getElem.mp (mem_freeEntries.mpr h)
  have hle := length_freeEntries_le bots
  refine ⟨v, by omega, ?_⟩
  rw [getFree_of_unassigned h]
  have hmod : v % (freeEntries bots).length = v := Nat.mod_eq_of_lt hv
  simp [Rand.value, hmod, List.getElem?_eq_getElem hv, hi]

theorem getFree_sound_and_complete (active : Int → Bool) (bots : List BotIdentity) (r : Rand) :
    ((getFree active bots r).1 = none ↔ ∀ i, ¬ Eligible active bots i) ∧
    (∀ i bots' r', getFree active bots r = (some i, bots', r') →
      Eligible active bots i ∧ (∃ b, bots'[i]? = some b ∧ b.slot < 0) ∧
        ∀ j, j ≠ i → bots'[j]? = bots[j]?) ∧
    (∀ i b, bots[i]? = some b → 0 ≤ b.slot → b.slot < 64 → active b.slot = true →
      (getFree active bots r).1 ≠ some i) ∧
    (∀ i b bots' r', getFree active bots r = (some i, bots', r') → bots[i]? = some b →
      0 ≤ b.slot ∨ bots' ≠ bots → ∀ j, ¬ Unassigned bots j) ∧
    (∀ i, Unassigned bots i → ∃ v, v < bots.length ∧
      (getFree active bots { r with draws := fun _ => v }).1 = some i) := by
  refine ⟨getFree_eq_none_iff, ?_, ?_, ?_, fun i hi => getFree_reaches hi⟩
  · intro i bots' r' h
    obtain ⟨he, hs, hkeep, -⟩ := getFree_eq_some h
    exact ⟨he, hs, hkeep⟩
  · intro i b hb h0 h64 hact hi
    rcases hg : getFree active bots r with ⟨o, bots', r'⟩
    rw [hg] at hi
    cases hi
    obtain ⟨⟨b', hb', -, hidle⟩, -⟩ := getFree_eq_some hg
    rw [hb] at hb'
    cases hb'
    rcases hidle with hs | hs | hs
    · omega
    · omega
    · rw [hact] at hs
      cases hs
  · intro i b bots' r' h hb hrec j hj
    obtain ⟨⟨b', hb', hneg, -⟩, hsame⟩ := (getFree_eq_some h).2.2.2 ⟨j, hj⟩
    rw [hb] at hb'
    cases hb'
    rcases hrec with hs | hs
    · omega
    · exact hs hsame

end Botid
