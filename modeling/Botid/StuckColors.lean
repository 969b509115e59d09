import Botid.BarredColors

/-! Which gave-up bots keep the color they show: the sweep reserves on its way, not ahead of it. -/
namespace Botid
namespace Colors

variable {E : Peers} {team : UInt8} {taken : Taken} {leases : Leases} {bot b g : Player}
  {bots below : List Player} {players : List (Option Player)} {c : Int} {prefer : Int → Int}

/-- No bot is assigned the color that another managed bot of the team shows and is stuck with, unless
a human teammate takes it too. -/
def StuckColorsKept (E : Peers) (team : UInt8) (players : List (Option Player)) (leases : Leases) :
    Prop :=
  ∀ t ∈ (reconcileTeamColors E team players leases).2, ∀ c, t.outcome.assigned = some c →
    ∀ g ∈ teamBots E team players, g.slot ≠ t.bot.slot → Stuck E leases g →
      g.compTeammateColor = c → HumanTakes E team players c

/-- The colors that the stuck bots show. -/
def stuckColors (E : Peers) (leases : Leases) (bots : List Player) : Taken :=
  (bots.filter fun b => Stuck E leases b).map fun b => b.compTeammateColor

/-- What is taken behind stuck bots alone. -/
def reservedFor (leases : Leases) (taken : Taken) (stuck : List Player) : Taken :=
  stuck.foldl (fun taken b =>
    (reserveObservedColor taken b.compTeammateColor (leases b.slot).color).toList ++ taken) taken

theorem reservedFor_cons : reservedFor leases taken (b :: below) = reservedFor leases
    ((reserveObservedColor taken b.compTeammateColor (leases b.slot).color).toList ++ taken) below := rfl

/-- Every stuck bot above the first bot that is not shows a color that is not free by then: out of the
palette, a human's, or reserved for the stuck bots below. -/
def StuckCovered (E : Peers) (team : UInt8) (players : List (Option Player)) (leases : Leases) : Prop :=
  let bots := teamBots E team players
  let below := bots.takeWhile fun b => Stuck E leases b
  ∀ g ∈ bots.dropWhile fun b => Stuck E leases b, Stuck E leases g →
    isFreeColor g.compTeammateColor (reservedFor leases (humanColors E team players) below) = false

/-- The managed bot with another preferred color. -/
def prefers (E : Peers) (prefer : Int → Int) (p : Player) : Player :=
  if isManaged E p then { p with teammatePreferredColor := prefer p.slot } else p

/-- The same players with other preferred colors on the managed bots. -/
def withPreferred (E : Peers) (prefer : Int → Int) (players : List (Option Player)) :
    List (Option Player) :=
  players.map (Option.map (prefers E prefer))

theorem Stuck.renewLease_eq (h : Stuck E leases bot) :
    renewLease E (leases bot.slot) bot = leases bot.slot :=
  renewLease_of_not_stale h.2

/-- A stuck bot's turn reserves, and leaves its lease as it is. -/
theorem botTurn_stuck (h : Stuck E leases bot) : botTurn E taken (leases bot.slot) bot =
    (leases bot.slot, .reserved
      (reserveObservedColor taken bot.compTeammateColor (leases bot.slot).color)) := by
  unfold botTurn
  dsimp only
  rw [h.renewLease_eq, if_pos h.1]

/-- Stuck bots in front of the others only add to what is taken. -/
theorem botLoop_stuck (hslots : ∀ b ∈ below, inSlots b.slot = true)
    (hstuck : ∀ b ∈ below, Stuck E leases b) :
    ∃ turns : List Turn, (∀ t ∈ turns, t.outcome.assigned = none) ∧
      botLoop E taken leases (below ++ bots) =
        ((botLoop E (reservedFor leases taken below) leases bots).1,
          turns ++ (botLoop E (reservedFor leases taken below) leases bots).2) := by
  induction below generalizing taken with
  | nil => exact ⟨[], by simp, rfl⟩
  | cons b below ih =>
    have hb := hstuck b List.mem_cons_self
    obtain ⟨turns, hnone, hloop⟩ := @ih
      ((reserveObservedColor taken b.compTeammateColor (leases b.slot).color).toList ++ taken)
      (fun b' hb' => hslots b' (List.mem_cons_of_mem b hb'))
      (fun b' hb' => hstuck b' (List.mem_cons_of_mem b hb'))
    refine ⟨⟨b, isStale E (leases b.slot) b, .reserved (reserveObservedColor taken b.compTeammateColor
      (leases b.slot).color)⟩ :: turns, ?_, ?_⟩
    · intro t ht
      rcases List.mem_cons.mp ht with rfl | ht
      · rfl
      · exact hnone t ht
    · rw [List.cons_append, botLoop_cons (hslots b List.mem_cons_self), botTurn_stuck hb]
      dsimp only [Outcome.added]
      rw [Function.update_eq_self, hloop, reservedFor_cons]
      rfl

theorem mem_reservedFor (h : c ∈ taken) : c ∈ reservedFor leases taken below := by
  induction below generalizing taken with
  | nil => exact h
  | cons b below ih => exact ih (List.mem_append_right _ h)

/-- A stuck bot's color is not free behind its own turn. -/
theorem not_free_reservedFor (h : g ∈ below) :
    isFreeColor g.compTeammateColor (reservedFor leases taken below) = false := by
  induction below generalizing taken with
  | nil => cases h
  | cons b below ih =>
    rw [reservedFor_cons]
    rcases List.mem_cons.mp h with rfl | h
    · have hturn : isFreeColor g.compTeammateColor
          ((reserveObservedColor taken g.compTeammateColor (leases g.slot).color).toList ++ taken) = false :=
        not_free_of_reserved
      rw [Bool.eq_false_iff, ne_eq, isFreeColor_iff] at hturn ⊢
      rintro ⟨hin, hfree⟩
      exact hturn ⟨hin, fun hmem => hfree (mem_reservedFor hmem)⟩
    · exact ih h

/-- The pass, cut at the first bot that is not stuck. -/
theorem reconcile_cut (E : Peers) (team : UInt8) (players : List (Option Player)) (leases : Leases) :
    let bots := teamBots E team players
    let taken := reservedFor leases (humanColors E team players)
      (bots.takeWhile fun b => Stuck E leases b)
    let rest := botLoop E taken leases (bots.dropWhile fun b => Stuck E leases b)
    ∃ turns : List Turn, (∀ t ∈ turns, t.outcome.assigned = none) ∧
      reconcileTeamColors E team players leases = (rest.1, turns ++ rest.2) := by
  intro bots taken rest
  have hbelow : ∀ b ∈ bots.takeWhile fun b => Stuck E leases b, b ∈ bots ∧ Stuck E leases b := by
    intro b hb
    exact ⟨(List.takeWhile_prefix _).subset hb, by simpa using List.mem_takeWhile_imp hb⟩
  have hcut : reconcileTeamColors E team players leases = botLoop E (humanColors E team players) leases
      ((bots.takeWhile fun b => Stuck E leases b) ++ bots.dropWhile fun b => Stuck E leases b) := by
    rw [List.takeWhile_append_dropWhile]
    rfl
  rw [hcut]
  exact botLoop_stuck (fun b hb => inSlots_of_mem_teamBots (hbelow b hb).1) fun b hb => (hbelow b hb).2

theorem stuckColorsKept_of_covered (h : StuckCovered E team players leases) :
    StuckColorsKept E team players leases := by
  intro t ht c hc g hg _ hstuck hcolor
  obtain ⟨turns, hnone, hcut⟩ := reconcile_cut E team players leases
  rw [hcut] at ht
  rcases List.mem_append.mp ht with ht | ht
  · rw [hnone t ht] at hc
    cases hc
  · obtain ⟨hin, hfree⟩ := botLoop_assigned ht hc
    have hnot : isFreeColor g.compTeammateColor (reservedFor leases (humanColors E team players)
        ((teamBots E team players).takeWhile fun b => Stuck E leases b)) = false := by
      rw [← List.takeWhile_append_dropWhile (p := fun b => decide (Stuck E leases b))
        (l := teamBots E team players), List.mem_append] at hg
      rcases hg with hg | hg
      · exact not_free_reservedFor hg
      · exact h g hg hstuck
    rw [hcolor, Bool.eq_false_iff, ne_eq, isFreeColor_iff] at hnot
    exact absurd ⟨hin, hfree⟩ hnot

theorem slot_prefers : (prefers E prefer bot).slot = bot.slot := by
  rw [prefers]
  split <;> rfl

theorem compTeammateColor_prefers :
    (prefers E prefer bot).compTeammateColor = bot.compTeammateColor := by
  rw [prefers]
  split <;> rfl

theorem repaints_prefers : Repaints E team (prefers E prefer) := by
  refine ⟨fun p => slot_prefers, fun p => ?_, fun p => ?_⟩
  · rw [prefers]
    split <;> rfl
  · rw [prefers]
    split <;> rfl

theorem prefers_human {p : Player} (hp : isTeamHuman E team p = true) : prefers E prefer p = p := by
  simp only [isTeamHuman, Bool.and_eq_true, Bool.not_eq_true'] at hp
  rw [prefers, hp.1.2]
  rfl

theorem stuck_prefers : Stuck E leases (prefers E prefer bot) ↔ Stuck E leases bot := by
  rw [prefers]
  split <;> rfl

theorem reservedFor_prefers :
    reservedFor leases taken (below.map (prefers E prefer)) = reservedFor leases taken below := by
  induction below generalizing taken with
  | nil => rfl
  | cons b below ih =>
    rw [List.map_cons, reservedFor_cons, reservedFor_cons, slot_prefers, compTeammateColor_prefers, ih]

theorem comp_prefers :
    (fun b => decide (Stuck E leases b)) ∘ prefers E prefer = fun b => decide (Stuck E leases b) :=
  funext fun _ => decide_eq_decide.mpr stuck_prefers

theorem teamBots_withPreferred : teamBots E team (withPreferred E prefer players) =
    (teamBots E team players).map (prefers E prefer) := repaints_prefers.teamBots_eq

theorem humanColors_withPreferred :
    humanColors E team (withPreferred E prefer players) = humanColors E team players :=
  repaints_prefers.humanColors_eq fun _ => prefers_human

theorem stuckCovered_prefers :
    StuckCovered E team (withPreferred E prefer players) leases ↔ StuckCovered E team players leases := by
  rw [StuckCovered, teamBots_withPreferred, humanColors_withPreferred, List.takeWhile_map,
    List.dropWhile_map, comp_prefers, reservedFor_prefers, StuckCovered]
  simp only [List.forall_mem_map, stuck_prefers, compTeammateColor_prefers]

/-- A bot that is not stuck takes the color it prefers, if that is free. -/
theorem TurnStep.assigned_preferred {lease lease' : Lease} {o : Outcome}
    (h : TurnStep E taken lease bot lease' o) (hlive : lease.gaveUp = false)
    (hfree : isFreeColor c taken = true) (hprefer : bot.teammatePreferredColor = c) :
    o.assigned = some c := by
  have hchoose : chooseColor taken bot.teammatePreferredColor bot.compTeammateColor lease.color = c := by
    rw [chooseColor, hprefer, if_pos hfree]
  cases h with
  | reserved stuck =>
    rw [hlive] at stuck
    cases stuck
  | unset live full =>
    obtain ⟨hin, hnot⟩ := isFreeColor_iff.mp hfree
    exact absurd (full c hin) hnot
  | kept live free chosen | gaveUp live free chosen | wrote live free chosen | failed live free chosen =>
    rw [← chosen, hchoose]
    rfl

theorem stuck_congr (hslot : g.slot = b.slot) (hteam : g.teamNum = b.teamNum) (h : Stuck E leases g) :
    Stuck E leases b := by
  rwa [Stuck, isStale, hslot, hteam, ← isStale, ← Stuck] at h

theorem teamNum_of_mem_teamBots (h : b ∈ teamBots E team players) : b.teamNum = team := by
  have hb := (mem_teamBots.mp h).2
  simp only [isTeamBot, onTeam, Bool.and_eq_true, decide_eq_true_eq] at hb
  exact hb.1.2

theorem teammatePreferredColor_prefers (h : b ∈ teamBots E team players) :
    (prefers E prefer b).teammatePreferredColor = prefer b.slot := by
  have hb := (mem_teamBots.mp h).2
  rw [isTeamBot, Bool.and_eq_true] at hb
  rw [prefers, if_pos hb.2]

theorem slot_ne_of_stuck (hg : g ∈ teamBots E team players) (hb : b ∈ teamBots E team players)
    (hstuck : Stuck E leases g) (hlive : ¬ Stuck E leases b) : g.slot ≠ b.slot := by
  intro he
  refine hlive (stuck_congr he ?_ hstuck)
  rw [teamNum_of_mem_teamBots hg, teamNum_of_mem_teamBots hb]

theorem first_not_stuck (hrest : ((teamBots E team players).dropWhile fun b => Stuck E leases b) =
    b :: bots) : b ∈ teamBots E team players ∧ ¬ Stuck E leases b := by
  have hnot := List.head?_dropWhile_not (fun b => decide (Stuck E leases b)) (teamBots E team players)
  rw [hrest] at hnot
  exact ⟨(List.dropWhile_suffix _).subset (hrest ▸ List.mem_cons_self), by simpa using hnot⟩

/-- The first bot that is not stuck gets the color it prefers, where the stuck bots below and the
humans leave it free. -/
theorem first_assigned_preferred
    (hrest : ((teamBots E team players).dropWhile fun b => Stuck E leases b) = b :: bots)
    (hfree : isFreeColor c (reservedFor leases (humanColors E team players)
      ((teamBots E team players).takeWhile fun b => Stuck E leases b)) = true) :
    ∃ t ∈ (reconcileTeamColors E team (withPreferred E (fun _ => c) players) leases).2,
      t.bot.slot = b.slot ∧ t.outcome.assigned = some c := by
  obtain ⟨hb, hnot⟩ := first_not_stuck hrest
  have hlive : ¬ Stuck E leases (prefers E (fun _ => c) b) := mt stuck_prefers.mp hnot
  rw [stuck_iff, Bool.not_eq_true] at hlive
  obtain ⟨turns, -, hcut⟩ := reconcile_cut E team (withPreferred E (fun _ => c) players) leases
  rw [teamBots_withPreferred, humanColors_withPreferred, List.takeWhile_map, List.dropWhile_map,
    comp_prefers, reservedFor_prefers, hrest, List.map_cons,
    botLoop_cons (by rw [slot_prefers]; exact inSlots_of_mem_teamBots hb)] at hcut
  have hassigned := botTurn_step.assigned_preferred hlive hfree (teammatePreferredColor_prefers hb)
  let painted := prefers E (fun _ => c) b
  refine ⟨⟨painted, isStale E (leases painted.slot) painted, _⟩, ?_, slot_prefers, hassigned⟩
  rw [hcut]
  exact List.mem_append_right _ List.mem_cons_self

/-- Where a stuck bot's color is free when the first other bot has its turn, that bot takes it if it
prefers it. -/
theorem stuck_color_taken (h : ¬ StuckCovered E team players leases) :
    ∃ prefer, ¬ StuckColorsKept E team (withPreferred E prefer players) leases := by
  rw [StuckCovered] at h
  simp only [not_forall, Bool.not_eq_false] at h
  obtain ⟨g, hg, hstuck, hfree⟩ := h
  refine ⟨fun _ => g.compTeammateColor, fun hkept => ?_⟩
  have hgbots : g ∈ teamBots E team players := (List.dropWhile_suffix _).subset hg
  obtain ⟨first, rest, hrest⟩ := List.exists_cons_of_ne_nil (List.ne_nil_of_mem hg)
  obtain ⟨hfirst, hlive⟩ := first_not_stuck hrest
  obtain ⟨t, ht, hslot, hassigned⟩ := first_assigned_preferred hrest hfree
  have hne : (prefers E (fun _ => g.compTeammateColor) g).slot ≠ t.bot.slot := by
    rw [slot_prefers, hslot]
    exact slot_ne_of_stuck hgbots hfirst hstuck hlive
  -- what no human takes is free before the stuck bots too
  have hhuman := hkept t ht _ hassigned (prefers E (fun _ => g.compTeammateColor) g)
    (by rw [teamBots_withPreferred]; exact List.mem_map.mpr ⟨g, hgbots, rfl⟩) hne
    (stuck_prefers.mpr hstuck) compTeammateColor_prefers
  obtain ⟨hin, hnot⟩ := isFreeColor_iff.mp hfree
  have hmem := mem_humanColors.mpr ⟨hhuman, hin⟩
  rw [humanColors_withPreferred] at hmem
  exact hnot (mem_reservedFor hmem)

/-- No turn on a stuck bot's slot assigns a color. -/
theorem botLoop_stuck_slot (hg : Stuck E leases g) (hteam : ∀ b ∈ bots, b.teamNum = g.teamNum)
    {t : Turn} (ht : t ∈ (botLoop E taken leases bots).2) (hslot : t.bot.slot = g.slot) :
    t.outcome.assigned = none := by
  induction bots generalizing taken leases with
  | nil => cases ht
  | cons bot bots ih =>
    have hrest : ∀ b ∈ bots, b.teamNum = g.teamNum := fun b hb => hteam b (List.mem_cons_of_mem bot hb)
    rw [botLoop] at ht
    split at ht
    · by_cases hsame : bot.slot = g.slot
      · have hbot : Stuck E leases bot := stuck_congr hsame.symm (hteam bot List.mem_cons_self).symm hg
        rw [botTurn_stuck hbot] at ht
        dsimp only at ht
        rw [Function.update_eq_self] at ht
        rcases List.mem_cons.mp ht with rfl | ht
        · rfl
        · exact ih hg hrest ht
      · rcases List.mem_cons.mp ht with rfl | ht
        · exact absurd hslot hsame
        · refine ih ?_ hrest ht
          rwa [Stuck, Function.update_of_ne (Ne.symm hsame), ← Stuck]
    · exact ih hg hrest ht

theorem stuckColorsKept_iff_not_assigned : StuckColorsKept E team players leases ↔
    ∀ t ∈ (reconcileTeamColors E team players leases).2, ∀ c, t.outcome.assigned = some c →
      c ∉ stuckColors E leases (teamBots E team players) := by
  constructor
  · intro h t ht c hc hmem
    obtain ⟨g, hg, rfl⟩ := List.mem_map.mp hmem
    rw [List.mem_filter, decide_eq_true_eq] at hg
    have hne : g.slot ≠ t.bot.slot := by
      intro hslot
      have hnone := botLoop_stuck_slot hg.2
        (fun b hb => (teamNum_of_mem_teamBots hb).trans (teamNum_of_mem_teamBots hg.1).symm) ht hslot.symm
      rw [hnone] at hc
      cases hc
    obtain ⟨hin, hfree⟩ := botLoop_assigned ht hc
    exact hfree (mem_humanColors.mpr ⟨h t ht _ hc g hg.1 hne hg.2 rfl, hin⟩)
  · intro h t ht c hc g hg _ hstuck hcolor
    refine absurd (List.mem_map.mpr ⟨g, List.mem_filter.mpr ⟨hg, ?_⟩, hcolor⟩) (h t ht c hc)
    exact decide_eq_true hstuck

/-- The pass keeps off the stuck bots' colors exactly when nobody steps aside for them. -/
theorem stuckColorsKept_iff : StuckColorsKept E team players leases ↔
    NobodyStepsAside E (stuckColors E leases (teamBots E team players)) (humanColors E team players)
      leases (teamBots E team players) := by
  rw [stuckColorsKept_iff_not_assigned]
  exact (nobodyStepsAside_iff fun _ hb => inSlots_of_mem_teamBots hb).symm

/-- The sweep keeps off the gave-up bots' colors exactly when nobody would step aside for them; and
whatever the managed bots prefer, exactly when the ones it reaches late are covered. -/
theorem stuck_colors_kept_iff (E : Peers) (team : UInt8) (players : List (Option Player))
    (leases : Leases) :
    let bots := teamBots E team players
    (StuckColorsKept E team players leases ↔
      NobodyStepsAside E (stuckColors E leases bots) (humanColors E team players) leases bots) ∧
    (StuckCovered E team players leases → StuckColorsKept E team players leases) ∧
    ((∀ prefer, StuckColorsKept E team (withPreferred E prefer players) leases) ↔
      StuckCovered E team players leases) := by
  refine ⟨stuckColorsKept_iff, stuckColorsKept_of_covered, fun h => ?_, fun h prefer => ?_⟩
  · by_contra hnot
    obtain ⟨prefer, hprefer⟩ := stuck_color_taken hnot
    exact hprefer (h prefer)
  · exact stuckColorsKept_of_covered (stuckCovered_prefers.mpr h)

/-- Two managed bots of one team and no humans; the second has kept showing color 2. -/
def stuckAbove : List (Option Player) := [
  some { teamNum := 2, slot := 0, isBot := true, compTeammateColor := -1, teammatePreferredColor := 2 },
  some { teamNum := 2, slot := 1, isBot := true, compTeammateColor := 2, teammatePreferredColor := 2 }]

def allManaged : Peers where
  isManagedBot _ := true
  getSlotIncarnation _ := 1
  tryWriteTeammateColor _ _ := true

/-- Slot 1 gave up on color 3 after three writes. -/
def stuckLease (slot : Int) : Lease :=
  if slot = 1 then { color := 3, incarnation := 1, team := 2, forceWrites := 3, gaveUp := true } else {}

theorem stuck_color_assigned : ¬ StuckColorsKept allManaged 2 stuckAbove stuckLease := by
  intro h
  have hturn : (⟨_, true, .wrote 2⟩ : Turn) ∈
      (reconcileTeamColors allManaged 2 stuckAbove stuckLease).2 := List.mem_cons_self
  obtain ⟨p, hp, hhuman, -⟩ := h _ hturn 2 rfl
    { teamNum := 2, slot := 1, isBot := true, compTeammateColor := 2, teammatePreferredColor := 2 }
    (by decide) (by decide) (by decide) rfl
  simp only [stuckAbove, List.mem_cons, Option.some.injEq, List.not_mem_nil, or_false] at hp
  rcases hp with rfl | rfl
  · cases hhuman
  · cases hhuman

end Colors
end Botid
