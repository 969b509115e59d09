import Botid.Greedy
import Botid.TeammateColors

/-! The colors one pass hands out: free ones, no two alike, and none left where a bot goes without. -/
namespace Botid
namespace Colors

open Greedy

variable {E : Peers} {team : UInt8} {taken : Taken} {lease : Lease} {leases : Leases}
  {bot : Player} {bots : List Player} {players : List (Option Player)} {c : Int} {pre post : List Turn}
  {t u : Turn}

/-- The bot is in the gave-up state of its own incarnation and team. -/
def Stuck (E : Peers) (leases : Leases) (bot : Player) : Prop :=
  (leases bot.slot).gaveUp = true ∧ isStale E (leases bot.slot) bot = false

instance : Decidable (Stuck E leases bot) := inferInstanceAs (Decidable (_ ∧ _))

theorem isStale_renewLease : isStale E (renewLease E lease bot) bot = false := by
  rw [renewLease]
  split
  · simp [isStale]
  · rename_i h
    rwa [Bool.not_eq_true] at h

theorem renewLease_of_not_stale (h : isStale E lease bot = false) : renewLease E lease bot = lease := by
  rw [renewLease, h]
  rfl

theorem stuck_iff : Stuck E leases bot ↔ (renewLease E (leases bot.slot) bot).gaveUp = true := by
  rw [Stuck, renewLease]
  cases h : isStale E (leases bot.slot) bot with
  | true => simp
  | false => simp

/-- What the turns added, in their order. -/
def added (turns : List Turn) : List (Option Int) := turns.map fun t => t.outcome.added

theorem mem_of_botLoop (h : t ∈ (botLoop E taken leases bots).2) : t.bot ∈ bots := by
  induction bots generalizing taken leases with
  | nil => cases h
  | cons bot bots ih =>
    rw [botLoop] at h
    split at h
    · rcases List.mem_cons.mp h with rfl | h
      · exact List.mem_cons_self
      · exact List.mem_cons_of_mem bot (ih h)
    · exact List.mem_cons_of_mem bot (ih h)

/-- A turn of the loop is a step from what was taken by then; where no two bots share a slot, it is
on the lease from before the loop. -/
theorem botLoop_step (h : (botLoop E taken leases bots).2 = pre ++ t :: post) :
    ∃ lease lease', TurnStep E (after taken (added pre)) lease t.bot lease' t.outcome ∧
      ((bots.map fun b => b.slot).Nodup → lease = renewLease E (leases t.bot.slot) t.bot) := by
  induction bots generalizing taken leases pre with
  | nil => simp [botLoop] at h
  | cons bot bots ih =>
    rw [botLoop] at h
    split at h
    · cases pre with
      | nil =>
        cases h
        exact ⟨_, _, botTurn_step, fun _ => rfl⟩
      | cons u pre =>
        obtain ⟨rfl, hrest⟩ := List.cons.inj h
        obtain ⟨lease, lease', hstep, hlease⟩ := ih hrest
        refine ⟨lease, lease', hstep, fun hdistinct => ?_⟩
        obtain ⟨hfirst, hdistinct⟩ := List.nodup_cons.mp hdistinct
        have ht : t ∈ pre ++ t :: post := List.mem_append_right pre List.mem_cons_self
        rw [show pre ++ t :: post = _ from hrest.symm] at ht
        have hne : t.bot.slot ≠ bot.slot := fun he =>
          hfirst (List.mem_map.mpr ⟨t.bot, mem_of_botLoop ht, he⟩)
        rw [hlease hdistinct, Function.update_of_ne hne]
    · obtain ⟨lease, lease', hstep, hlease⟩ := ih h
      exact ⟨lease, lease', hstep, fun hdistinct => hlease (List.nodup_cons.mp hdistinct).2⟩

theorem botLoop_fresh : Fresh taken (added (botLoop E taken leases bots).2) := by
  induction bots generalizing taken leases with
  | nil => trivial
  | cons bot bots ih =>
    rw [botLoop]
    split
    · exact ⟨fun c hc => (isFreeColor_iff.mp (botTurn_step.added_free hc)).2, ih⟩
    · exact ih

/-- A color that a turn assigns is one of the five and was not taken before the loop. -/
theorem botLoop_assigned (ht : t ∈ (botLoop E taken leases bots).2)
    (hc : t.outcome.assigned = some c) : InPalette c ∧ c ∉ taken := by
  have hadded := Outcome.added_of_assigned hc
  obtain ⟨pre, post, hsplit⟩ := List.append_of_mem ht
  obtain ⟨lease, lease', hstep, -⟩ := botLoop_step hsplit
  have hfresh : Fresh taken (added (botLoop E taken leases bots).2) := botLoop_fresh
  exact ⟨(isFreeColor_iff.mp (hstep.added_free hadded)).1,
    hfresh.not_taken (List.mem_map.mpr ⟨t, ht, hadded⟩)⟩

/-- The turns are the bots of the list, in its order. -/
theorem botLoop_bots (h : ∀ bot ∈ bots, inSlots bot.slot = true) :
    ((botLoop E taken leases bots).2.map fun t => t.bot) = bots := by
  induction bots generalizing taken leases with
  | nil => rfl
  | cons bot bots ih =>
    rw [botLoop, if_pos (h bot List.mem_cons_self), List.map_cons,
      ih fun b hb => h b (List.mem_cons_of_mem bot hb)]

theorem reconcile_bots (E : Peers) (team : UInt8) (players : List (Option Player)) (leases : Leases) :
    ((reconcileTeamColors E team players leases).2.map fun t => t.bot) = teamBots E team players :=
  botLoop_bots fun _ hb => inSlots_of_mem_teamBots hb

theorem reconcile_sorted : (reconcileTeamColors E team players leases).2.Pairwise
    fun t u => t.bot.slot ≤ u.bot.slot := by
  have h := teamBots_sorted E team players
  rwa [← reconcile_bots E team players leases, List.pairwise_map] at h

theorem colors_assigned_apart (E : Peers) (team : UInt8) (players : List (Option Player))
    (leases : Leases) :
    let turns := (reconcileTeamColors E team players leases).2
    (turns.map fun t => t.bot) = teamBots E team players ∧
    turns.Pairwise (fun t u => t.bot.slot ≤ u.bot.slot) ∧
    (∀ t ∈ turns, ∀ c, t.outcome.assigned = some c → InPalette c ∧ ¬ HumanTakes E team players c) ∧
    turns.Pairwise (fun t u => ∀ c, t.outcome.assigned = some c → u.outcome.assigned ≠ some c) ∧
    turns.Pairwise (fun t u => ∀ c, t.outcome = .reserved (some c) → u.outcome.assigned ≠ some c) ∧
    (∀ pre u post, turns = pre ++ u :: post → u.outcome = .unset → ∀ c, InPalette c →
      HumanTakes E team players c ∨
        ∃ t ∈ pre, t.outcome.assigned = some c ∨ t.outcome = .reserved (some c)) := by
  intro turns
  have hfresh : Fresh (humanColors E team players) (added turns) := botLoop_fresh
  have hpairs := List.pairwise_map.mp hfresh.pairwise
  refine ⟨reconcile_bots E team players leases, reconcile_sorted, ?_, ?_, ?_, ?_⟩
  · intro t ht c hc
    obtain ⟨hin, hfree⟩ := botLoop_assigned ht hc
    exact ⟨hin, fun hhuman => hfree (mem_humanColors.mpr ⟨hhuman, hin⟩)⟩
  · exact hpairs.imp fun h c hc hu =>
      h c (Outcome.added_of_assigned hc) (Outcome.added_of_assigned hu)
  · refine hpairs.imp fun {t u} h c hc hu => h c ?_ (Outcome.added_of_assigned hu)
    rw [hc]
    rfl
  · intro pre u post hsplit hunset c hc
    obtain ⟨lease, lease', hstep, -⟩ := botLoop_step hsplit
    have htaken : c ∈ after (humanColors E team players) (added pre) := by
      rw [hunset] at hstep
      cases hstep with
      | unset _ full => exact full c hc
    rcases mem_after.mp htaken with hhuman | hadded
    · exact Or.inl (mem_humanColors.mp hhuman).1
    · obtain ⟨t, ht, ho⟩ := List.mem_map.mp hadded
      exact Or.inr ⟨t, ht, Outcome.assigned_or_reserved ho⟩

/-- A change to the players that leaves everybody's slot and role alone. -/
structure Repaints (E : Peers) (team : UInt8) (f : Player → Player) : Prop where
  slot : ∀ p, (f p).slot = p.slot
  bot : ∀ p, isTeamBot E team (f p) = isTeamBot E team p
  human : ∀ p, isTeamHuman E team (f p) = isTeamHuman E team p

variable {f : Player → Player}

theorem filterMap_repaint :
    (players.map (Option.map f)).filterMap id = (players.filterMap id).map f := by
  rw [List.filterMap_map, List.map_filterMap]
  rfl

theorem Repaints.teamBots_eq (h : Repaints E team f) :
    teamBots E team (players.map (Option.map f)) = (teamBots E team players).map f := by
  have hcomp : isTeamBot E team ∘ f = isTeamBot E team := funext h.bot
  rw [teamBots, teamBots, filterMap_repaint, List.filter_map, hcomp,
    List.map_insertionSort BySlot BySlot]
  intro p _ q _
  rw [BySlot, BySlot, h.slot, h.slot]

theorem Repaints.humanColors_eq (h : Repaints E team f)
    (hsame : ∀ p, isTeamHuman E team p = true → f p = p) :
    humanColors E team (players.map (Option.map f)) = humanColors E team players := by
  have hcomp : isTeamHuman E team ∘ f = isTeamHuman E team := funext h.human
  rw [humanColors, humanColors, filterMap_repaint, List.filter_map, hcomp,
    List.map_congr_left fun p hp => hsame p (List.mem_filter.mp hp).2, List.map_id']

end Colors
end Botid
