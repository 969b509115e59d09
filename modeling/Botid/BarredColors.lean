import Botid.ColorRules
import Mathlib.Data.List.Find

/-! A pass with some colors barred from every choice, and when the bar changes nothing. -/
namespace Botid
namespace Colors

open Greedy

variable {E : Peers} {taken barred : Taken} {leases : Leases} {lease : Lease} {bot : Player}
  {bots : List Player} {c : Int}

/-- What a bot sees as taken when these colors are barred; a stuck bot does not choose. -/
def seenTaken (E : Peers) (barred taken : Taken) (lease : Lease) (bot : Player) : Taken :=
  if (renewLease E lease bot).gaveUp then taken else barred ++ taken

/-- The color that a bot chooses on its own lease. -/
def choice (E : Peers) (taken : Taken) (lease : Lease) (bot : Player) : Int :=
  chooseColor taken bot.teammatePreferredColor bot.compTeammateColor (renewLease E lease bot).color

/-- In the pass with these colors barred from every choice, no bot would choose otherwise without
the bar. -/
def NobodyStepsAside (E : Peers) (barred : Taken) : Taken → Leases → List Player → Prop
  | _, _, [] => True
  | taken, leases, bot :: bots =>
    let seen := seenTaken E barred taken (leases bot.slot) bot
    let turn := botTurn E seen (leases bot.slot) bot
    choice E seen (leases bot.slot) bot = choice E taken (leases bot.slot) bot ∧
      NobodyStepsAside E barred (turn.2.added.toList ++ taken)
        (Function.update leases bot.slot turn.1) bots

/-- The colors in the order in which a bot tries them. -/
def candidates (valvePreferred current cached : Int) : List Int :=
  [valvePreferred, current, cached, 0, 1, 2, 3, 4]

theorem chooseColor_eq_find (taken : Taken) (valvePreferred current cached : Int) :
    chooseColor taken valvePreferred current cached =
      ((candidates valvePreferred current cached).find? fun c => isFreeColor c taken).getD colorUnset := by
  have hfirst : firstFreeColor taken =
      ([0, 1, 2, 3, 4].find? fun c : Int => isFreeColor c taken).getD colorUnset := by
    have hmap : ([0, 1, 2, 3, 4] : List Int) = (List.range colorCount.toNat).map Int.ofNat := rfl
    have hfree : ∀ i ∈ List.range colorCount.toNat,
        (!taken.contains (i : Int)) = ((fun c : Int => isFreeColor c taken) ∘ Int.ofNat) i := by
      intro i hi
      rw [List.mem_range] at hi
      have hin : InPalette (i : Int) := by
        simp only [colorCount] at hi
        simp only [InPalette, colorCount]
        omega
      rw [Function.comp_apply, Int.ofNat_eq_natCast, Bool.eq_iff_iff, isFreeColor_iff]
      simp [hin]
    rw [firstFreeColor, hmap, List.find?_map, List.find?_congr hfree]
    cases (List.range colorCount.toNat).find? ((fun c : Int => isFreeColor c taken) ∘ Int.ofNat) <;> rfl
  rw [chooseColor, candidates, hfirst]
  simp only [List.find?_cons]
  cases isFreeColor valvePreferred taken <;> cases isFreeColor current taken <;>
    cases isFreeColor cached taken <;> rfl

theorem isFreeColor_append : isFreeColor c (barred ++ taken) = true ↔
    c ∉ barred ∧ isFreeColor c taken = true := by
  rw [isFreeColor_iff, isFreeColor_iff, List.mem_append, not_or]
  tauto

/-- A choice outside the barred colors is the choice with the bar. -/
theorem chooseColor_barred {valvePreferred current cached : Int}
    (h : chooseColor taken valvePreferred current cached = colorUnset ∨
      chooseColor taken valvePreferred current cached ∉ barred) :
    chooseColor (barred ++ taken) valvePreferred current cached =
      chooseColor taken valvePreferred current cached := by
  have hfind := chooseColor_eq_find taken valvePreferred current cached
  rw [chooseColor_eq_find (barred ++ taken), hfind, find?_eq_of_imp]
  · exact fun x hx => (isFreeColor_append.mp hx).2
  · intro x hx
    have hfree := List.find?_some hx
    rw [hx, Option.getD_some] at hfind
    rw [hfind] at h
    refine isFreeColor_append.mpr ⟨h.resolve_left ?_, hfree⟩
    rintro rfl
    rw [not_isFreeColor_colorUnset] at hfree
    cases hfree

theorem assigned_botTurn_of_stuck (h : (renewLease E lease bot).gaveUp = true) :
    (botTurn E taken lease bot).2.assigned = none := by
  unfold botTurn
  dsimp only
  rw [if_pos h]
  rfl

theorem assigned_botTurn (h : (renewLease E lease bot).gaveUp = false) :
    (botTurn E taken lease bot).2.assigned =
      if choice E taken lease bot = colorUnset then none else some (choice E taken lease bot) := by
  unfold botTurn choice
  dsimp only
  rw [h, if_neg Bool.false_ne_true]
  split
  · rfl
  · split
    · rfl
    · split
      · rfl
      · split <;> rfl

theorem botTurn_congr {taken' : Taken} (h : (renewLease E lease bot).gaveUp = false)
    (hchoice : choice E taken lease bot = choice E taken' lease bot) :
    botTurn E taken lease bot = botTurn E taken' lease bot := by
  unfold choice at hchoice
  unfold botTurn
  dsimp only
  rw [h, if_neg Bool.false_ne_true, if_neg Bool.false_ne_true, hchoice]

/-- Nobody steps aside at a turn exactly when it assigns no barred color, and then it is the same turn. -/
theorem choice_seenTaken_iff : choice E (seenTaken E barred taken lease bot) lease bot =
      choice E taken lease bot ↔
    ∀ c, (botTurn E taken lease bot).2.assigned = some c → c ∉ barred := by
  rw [seenTaken]
  cases hlive : (renewLease E lease bot).gaveUp with
  | true =>
    rw [assigned_botTurn_of_stuck hlive, if_pos rfl]
    simp
  | false =>
    rw [if_neg Bool.false_ne_true, assigned_botTurn hlive]
    constructor
    · intro h c hc
      split at hc
      · cases hc
      · rename_i hset
        cases hc
        rw [← h] at hset ⊢
        rcases chooseColor_spec (barred ++ taken) bot.teammatePreferredColor bot.compTeammateColor
          (renewLease E lease bot).color with ⟨hunset, -⟩ | hfree
        · exact absurd hunset hset
        · exact (isFreeColor_append.mp hfree).1
    · intro h
      apply chooseColor_barred
      by_cases hset : choice E taken lease bot = colorUnset
      · exact Or.inl hset
      · rw [if_neg hset] at h
        exact Or.inr (h _ rfl)

theorem botTurn_seenTaken (h : choice E (seenTaken E barred taken lease bot) lease bot =
    choice E taken lease bot) :
    botTurn E (seenTaken E barred taken lease bot) lease bot = botTurn E taken lease bot := by
  cases hlive : (renewLease E lease bot).gaveUp with
  | true => rw [seenTaken, if_pos hlive]
  | false => exact botTurn_congr hlive h

theorem nobodyStepsAside_iff (hslots : ∀ b ∈ bots, inSlots b.slot = true) :
    NobodyStepsAside E barred taken leases bots ↔
      ∀ t ∈ (botLoop E taken leases bots).2, ∀ c, t.outcome.assigned = some c → c ∉ barred := by
  induction bots generalizing taken leases with
  | nil => simp [NobodyStepsAside, botLoop]
  | cons bot bots ih =>
    have hrest : ∀ b ∈ bots, inSlots b.slot = true := fun b hb => hslots b (List.mem_cons_of_mem bot hb)
    rw [NobodyStepsAside, botLoop_cons (hslots bot List.mem_cons_self)]
    dsimp only
    rw [List.forall_mem_cons]
    constructor
    · rintro ⟨hsame, hlater⟩
      rw [botTurn_seenTaken hsame] at hlater
      exact ⟨choice_seenTaken_iff.mp hsame, (ih hrest).mp hlater⟩
    · rintro ⟨hfirst, hlater⟩
      have hsame := choice_seenTaken_iff.mpr hfirst
      rw [botTurn_seenTaken hsame]
      exact ⟨hsame, (ih hrest).mpr hlater⟩

end Colors
end Botid
