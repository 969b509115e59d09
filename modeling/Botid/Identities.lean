import Botid.BotInfo
import Mathlib.Logic.Function.Basic

/-! `IdentityManager`: which engine slot holds which pool entry. -/
namespace Botid

/-- The pool and the slot table over it. Both globals are only reached together. -/
structure Identities where
  bots : List BotIdentity
  /-- `m_Slots`: the pool index a slot holds, `-1` where it is unmanaged. -/
  slots : Int → Int

namespace Identities

def isManaged (ids : Identities) (slot : Int) : Bool :=
  if slot < 0 ∨ kMaxSlots ≤ slot then false else decide (0 ≤ ids.slots slot)

def mark (ids : Identities) (slot botIndex : Int) : Identities :=
  if slot < 0 ∨ kMaxSlots ≤ slot ∨ botIndex < 0 ∨ (kMaxBotIdentities : Int) ≤ botIndex then ids
  else { ids with slots := Function.update ids.slots slot botIndex }

/-- What `Unmark` writes into the pool entry it lets go. -/
def released (b : BotIdentity) : BotIdentity := { b with slot := -1, applied := false }

def unmark (ids : Identities) (slot : Int) : Identities :=
  if slot < 0 ∨ kMaxSlots ≤ slot then ids
  else if 0 ≤ ids.slots slot then
    { bots := ids.bots.modify (ids.slots slot).toNat released
      slots := Function.update ids.slots slot (-1) }
  else ids

def lookup (ids : Identities) (slot : Int) : Int :=
  if slot < 0 ∨ kMaxSlots ≤ slot then -1 else ids.slots slot

/-- `GetIdentity`: the pool entry behind a slot, `none` for a null pointer. -/
def getIdentity (ids : Identities) (slot : Int) : Option BotIdentity :=
  if ids.lookup slot < 0 then none else ids.bots[(ids.lookup slot).toNat]?

/-- A write through the pointer to one pool entry. -/
def modifyBot (ids : Identities) (i : Nat) (f : BotIdentity → BotIdentity) : Identities :=
  { ids with bots := ids.bots.modify i f }

/-- Slot `s` is managed and backed by pool entry `i`. -/
def Holds (ids : Identities) (s : Int) (i : Nat) : Prop :=
  0 ≤ s ∧ s < kMaxSlots ∧ ids.slots s = i

variable {ids : Identities} {s t : Int} {i j : Nat} {b : BotIdentity}

theorem isManaged_iff : ids.isManaged s = true ↔ ∃ i, ids.Holds s i := by
  simp only [isManaged, Holds]
  split
  · rename_i h
    simp only [Bool.false_eq_true, false_iff, not_exists]
    omega
  · rename_i h
    simp only [decide_eq_true_eq]
    constructor
    · intro hm
      exact ⟨(ids.slots s).toNat, by omega, by omega, by omega⟩
    · rintro ⟨i, -, -, hi⟩
      omega

theorem Holds.isManaged (h : ids.Holds s i) : ids.isManaged s = true := isManaged_iff.mpr ⟨i, h⟩

theorem isManaged_eq_false_iff : ids.isManaged s = false ↔ ∀ i, ¬ ids.Holds s i := by
  rw [← Bool.not_eq_true, isManaged_iff, not_exists]

theorem Holds.unique (h : ids.Holds s i) (h' : ids.Holds s j) : i = j := by
  have := h.2.2.symm.trans h'.2.2
  omega

theorem Holds.range (h : ids.Holds s i) : 0 ≤ s ∧ s < kMaxSlots := ⟨h.1, h.2.1⟩

theorem range_of_isManaged (h : ids.isManaged s = true) : 0 ≤ s ∧ s < kMaxSlots := by
  obtain ⟨i, hold⟩ := isManaged_iff.mp h
  exact hold.range

theorem Holds.lookup (h : ids.Holds s i) : ids.lookup s = i := by
  obtain ⟨h0, h1, hi⟩ := h
  simp [Identities.lookup, show ¬ (s < 0 ∨ kMaxSlots ≤ s) by omega, hi]

theorem Holds.getIdentity (h : ids.Holds s i) : ids.getIdentity s = ids.bots[i]? := by
  rw [Identities.getIdentity, h.lookup, if_neg (by omega), Int.toNat_natCast]

theorem holds_of_getIdentity (h : ids.getIdentity s = some b) :
    ∃ i, ids.Holds s i ∧ ids.bots[i]? = some b := by
  rw [Identities.getIdentity] at h
  split at h
  · simp at h
  · rename_i hl
    simp only [Identities.lookup] at hl h
    split at hl
    · omega
    · rename_i hr
      rw [if_neg hr] at h
      exact ⟨(ids.slots s).toNat, ⟨by omega, by omega, by omega⟩, h⟩

theorem bots_mark : (ids.mark s i).bots = ids.bots := by
  rw [mark]
  split <;> rfl

@[simp] theorem holds_modifyBot {k : Nat} {f : BotIdentity → BotIdentity} :
    (ids.modifyBot k f).Holds t j ↔ ids.Holds t j := Iff.rfl

@[simp] theorem isManaged_modifyBot {k : Nat} {f : BotIdentity → BotIdentity} :
    (ids.modifyBot k f).isManaged t = ids.isManaged t := rfl

@[simp] theorem slots_modifyBot {k : Nat} {f : BotIdentity → BotIdentity} :
    (ids.modifyBot k f).slots = ids.slots := rfl

@[simp] theorem length_bots_modifyBot {k : Nat} {f : BotIdentity → BotIdentity} :
    (ids.modifyBot k f).bots.length = ids.bots.length :=
  List.length_modify _ _ _

theorem isManaged_congr {ids' : Identities} (h : ids'.slots = ids.slots) :
    ids'.isManaged t = ids.isManaged t := by
  rw [isManaged, isManaged, h]

theorem isManaged_mark_of_ne (h : t ≠ s) : (ids.mark s i).isManaged t = ids.isManaged t := by
  rw [mark]
  split
  · rfl
  · simp [isManaged, h]

theorem holds_mark (hs : 0 ≤ s) (hs' : s < kMaxSlots) (hi : i < kMaxBotIdentities) :
    (ids.mark s i).Holds t j ↔ (t = s ∧ j = i) ∨ (t ≠ s ∧ ids.Holds t j) := by
  rw [mark, if_neg (by omega)]
  by_cases h : t = s
  · subst h
    simp only [Holds, Function.update_self, true_and, ne_eq, not_true_eq_false, false_and, or_false]
    omega
  · simp [Holds, h]

theorem holds_unmark : (ids.unmark s).Holds t j ↔ t ≠ s ∧ ids.Holds t j := by
  rw [unmark]
  split
  · rename_i h
    constructor
    · intro ht
      refine ⟨?_, ht⟩
      rintro rfl
      have := ht.range
      omega
    · exact And.right
  · split
    · by_cases h : t = s
      · subst h
        simp only [Holds, Function.update_self, ne_eq, not_true_eq_false, false_and, iff_false]
        omega
      · simp [Holds, h]
    · rename_i hneg
      constructor
      · intro ht
        refine ⟨?_, ht⟩
        rintro rfl
        have := ht.2.2
        omega
      · exact And.right

theorem isManaged_unmark : (ids.unmark s).isManaged t = true ↔ t ≠ s ∧ ids.isManaged t = true := by
  simp only [isManaged_iff, holds_unmark, exists_and_left]

theorem isManaged_unmark_self : (ids.unmark s).isManaged s = false := by
  simp [isManaged_eq_false_iff, holds_unmark]

theorem Holds.bots_unmark (h : ids.Holds s i) :
    (ids.unmark s).bots = ids.bots.modify i released := by
  obtain ⟨h0, h1, hi⟩ := h
  rw [unmark, if_neg (by omega), if_pos (by omega), hi]
  simp

theorem length_bots_unmark : (ids.unmark s).bots.length = ids.bots.length := by
  rw [unmark]
  split
  · rfl
  · split
    · exact List.length_modify _ _ _
    · rfl

theorem unmark_of_not_managed (h : ids.isManaged s = false) : ids.unmark s = ids := by
  rw [isManaged] at h
  rw [unmark]
  split
  · rfl
  · rename_i hr
    rw [if_neg hr] at h
    rw [if_neg (by simpa using h)]

/-- Marking an entry that `GetFree` handed out and rewriting it: who holds what afterwards, and what
became of the entries. -/
theorem take_spec {active : Int → Bool} {rd rd' : Rand} {bots : List BotIdentity}
    {f : BotIdentity → BotIdentity} (hlen : ids.bots.length ≤ kMaxBotIdentities) (h0 : 0 ≤ s)
    (h1 : s < kMaxSlots) (hf : getFree active ids.bots rd = (some i, bots, rd')) :
    let ids' := (({ ids with bots := bots } : Identities).mark s i).modifyBot i f
    (∀ t j, ids'.Holds t j ↔ (t = s ∧ j = i) ∨ (t ≠ s ∧ ids.Holds t j)) ∧
      (∀ j, j ≠ i → ids'.bots[j]? = ids.bots[j]?) ∧
      ∃ b, ids.bots[i]? = some b ∧
        (ids'.bots[i]? = some (f b) ∨ ids'.bots[i]? = some (f (resetForReuse b))) := by
  intro ids'
  obtain ⟨b, hb, -, hcase⟩ := getFree_some hf
  have hi : i < kMaxBotIdentities := lt_of_lt_of_le (List.getElem?_eq_some_iff.mp hb).1 hlen
  have hbots : ids'.bots = bots.modify i f := congrArg (fun l => l.modify i f) bots_mark
  refine ⟨fun t j => ?_, fun j hj => ?_, b, hb, ?_⟩
  · rw [holds_modifyBot, holds_mark h0 h1 hi]
    rfl
  · rw [hbots, List.getElem?_modify_ne _ _ (Ne.symm hj)]
    rcases hcase with ⟨-, rfl⟩ | ⟨rfl, -⟩
    · rfl
    · rw [List.getElem?_modify_ne _ _ (Ne.symm hj)]
  · rw [hbots, List.getElem?_modify_eq]
    rcases hcase with ⟨-, rfl⟩ | ⟨rfl, -⟩
    · exact Or.inl (by rw [hb]; rfl)
    · exact Or.inr (by rw [List.getElem?_modify_eq, hb]; rfl)

end Identities

end Botid
