import Botid.ColorRules

/-! A second pass over the plugin's own writes settles on the same colors and writes nothing. -/
namespace Botid
namespace Colors

variable {E : Peers} {team : UInt8} {taken : Taken} {lease lease' : Lease} {leases leases' : Leases}
  {bot p : Player} {bots : List Player} {players : List (Option Player)} {c s : Int} {o : Outcome}
  {turns : List Turn} {t : Turn}

/-- What `Utilities.GetPlayers` returns: every slot's controller once. -/
structure Roster where
  players : List (Option Player)
  distinct : ((players.filterMap id).map fun p => p.slot).Nodup

def Outcome.written : Outcome → Option Int
  | wrote color => some color
  | _ => none

/-- The color a slot was written, if it was. -/
def writtenColor (turns : List Turn) (slot : Int) : Option Int :=
  turns.findSome? fun t => if t.bot.slot = slot then t.outcome.written else none

/-- `SetSchemaValue` on the two color fields. -/
def Player.written (p : Player) : Option Int → Player
  | some color => { p with compTeammateColor := color, teammatePreferredColor := color }
  | none => p

/-- The player as the engine shows it after the writes of a pass. -/
def afterWrites (turns : List Turn) (p : Player) : Player := p.written (writtenColor turns p.slot)

@[simp] theorem Player.slot_written {w : Option Int} : (p.written w).slot = p.slot := by
  cases w <;> rfl

@[simp] theorem slot_afterWrites : (afterWrites turns p).slot = p.slot := Player.slot_written

/-- A turn that neither found the bot stuck, nor gave up, nor failed to write. -/
def Outcome.Clean : Outcome → Prop
  | reserved _ | gaveUp _ | failed _ => False
  | unset | kept _ | wrote _ => True

/-- The same turn with its write behind it. -/
def Outcome.settled : Outcome → Outcome
  | wrote color => kept color
  | o => o

/-- A color that was chosen is chosen again, once it is the cached one. -/
theorem chooseColor_cached {valvePreferred current cached : Int}
    (hfree : isFreeColor c taken = true) (h : chooseColor taken valvePreferred current cached = c)
    (hcurrent : current = c) : chooseColor taken valvePreferred current c = c := by
  rw [chooseColor] at h ⊢
  split at h
  · rw [if_pos ‹_›, h]
  · rw [if_neg ‹_›, hcurrent, if_pos hfree]

/-- And when it is the current and the preferred one. -/
theorem chooseColor_self (hfree : isFreeColor c taken = true) : chooseColor taken c c c = c := by
  rw [chooseColor, if_pos hfree]

theorem chooseColor_full {valvePreferred current cached : Int} (h : ∀ c, InPalette c → c ∈ taken) :
    chooseColor taken valvePreferred current cached = colorUnset := by
  rcases chooseColor_spec taken valvePreferred current cached with ⟨hunset, -⟩ | hfree
  · exact hunset
  · obtain ⟨hin, hnot⟩ := isFreeColor_iff.mp hfree
    exact absurd (h _ hin) hnot

theorem ne_colorUnset_of_free (h : isFreeColor c taken = true) : c ≠ colorUnset := by
  rintro rfl
  rw [not_isFreeColor_colorUnset] at h
  cases h

/-- A bot that shows the color it chooses keeps it. -/
theorem botTurn_kept (hstale : isStale E lease bot = false) (hlive : lease.gaveUp = false)
    (hfree : isFreeColor c taken = true) (hcurrent : bot.compTeammateColor = c)
    (hchoose : chooseColor taken bot.teammatePreferredColor bot.compTeammateColor lease.color = c) :
    botTurn E taken lease bot = ({ lease with color := c }, .kept c) := by
  unfold botTurn
  dsimp only
  rw [renewLease_of_not_stale hstale, hlive, hchoose, if_neg (by simp),
    if_neg (ne_colorUnset_of_free hfree), if_pos hcurrent]

theorem botTurn_unset (hstale : isStale E lease bot = false) (hlive : lease.gaveUp = false)
    (hfull : ∀ c, InPalette c → c ∈ taken) :
    botTurn E taken lease bot = ({ lease with color := colorUnset }, .unset) := by
  unfold botTurn
  dsimp only
  rw [renewLease_of_not_stale hstale, hlive, chooseColor_full hfull, if_neg (by simp), if_pos rfl]

/-- One bot's turn again, on the lease and the colors the first one left. -/
theorem botTurn_again (tryWrite : Player → Int → Bool) (h : TurnStep E taken lease bot lease' o)
    (hstale : isStale E lease bot = false) (hclean : o.Clean) :
    botTurn { E with tryWriteTeammateColor := tryWrite } taken lease'
      (bot.written o.written) = (lease', o.settled) := by
  cases h with
  | reserved | gaveUp | failed => cases hclean
  | unset live full => exact botTurn_unset hstale live full
  | kept live free chosen same =>
    exact botTurn_kept hstale live free same (chooseColor_cached free chosen same)
  | wrote live free chosen left success =>
    exact botTurn_kept hstale live free rfl (chooseColor_self free)

/-- The loop leaves the leases of other slots alone. -/
theorem botLoop_other (h : ∀ bot ∈ bots, bot.slot ≠ s) :
    (botLoop E taken leases bots).1 s = leases s := by
  induction bots generalizing taken leases with
  | nil => rfl
  | cons bot bots ih =>
    have hrest : ∀ b ∈ bots, b.slot ≠ s := fun b hb => h b (List.mem_cons_of_mem bot hb)
    rw [botLoop]
    split
    · dsimp only
      rw [ih hrest, Function.update_of_ne (h bot List.mem_cons_self).symm]
    · exact ih hrest

/-- The bot of a turn as the engine shows it behind that turn. -/
def Turn.botAfter (t : Turn) : Player := t.bot.written t.outcome.written

theorem Outcome.added_settled : o.settled.added = o.added := by
  cases o <;> rfl

theorem Outcome.assigned_settled : o.settled.assigned = o.assigned := by
  cases o <;> rfl

theorem Outcome.settled_of_clean (h : o.Clean) : o.settled = .unset ∨ ∃ c, o.settled = .kept c := by
  cases o with
  | reserved | gaveUp | failed => cases h
  | unset => exact Or.inl rfl
  | kept c | wrote c => exact Or.inr ⟨c, rfl⟩

/-- The whole loop again: every bot settles on the color it has. -/
theorem botLoop_again (hslots : ∀ bot ∈ bots, inSlots bot.slot = true)
    (hdistinct : (bots.map fun b => b.slot).Nodup)
    (hclean : ∀ t ∈ (botLoop E taken leases bots).2, t.outcome.Clean)
    (hleases : ∀ bot ∈ bots, leases' bot.slot = (botLoop E taken leases bots).1 bot.slot)
    (tryWrite : Player → Int → Bool) :
    ((botLoop { E with tryWriteTeammateColor := tryWrite } taken leases'
        ((botLoop E taken leases bots).2.map Turn.botAfter)).2.map fun t => (t.bot.slot, t.outcome)) =
      (botLoop E taken leases bots).2.map fun t => (t.bot.slot, t.outcome.settled) := by
  induction bots generalizing taken leases leases' with
  | nil => rfl
  | cons bot bots ih =>
    have hslot := hslots bot List.mem_cons_self
    obtain ⟨hfirst, hrest⟩ := List.nodup_cons.mp hdistinct
    have hne : ∀ b ∈ bots, b.slot ≠ bot.slot := fun b hb he => hfirst (List.mem_map.mpr ⟨b, hb, he⟩)
    rw [botLoop, if_pos hslot] at hclean hleases ⊢
    dsimp only at hclean hleases ⊢
    have hlease := hleases bot List.mem_cons_self
    rw [botLoop_other hne, Function.update_self] at hlease
    have hstep : TurnStep E taken (renewLease E (leases bot.slot) bot) bot _ _ := botTurn_step
    have hturn := botTurn_again tryWrite hstep isStale_renewLease (hclean _ List.mem_cons_self)
    rw [← hlease] at hturn
    rw [List.map_cons, botLoop, if_pos (by simpa [Turn.botAfter] using hslot)]
    simp only [List.map_cons, Turn.botAfter, Player.slot_written, hturn, Outcome.added_settled]
    congr 1
    refine ih (fun b hb => hslots b (List.mem_cons_of_mem bot hb)) hrest
      (fun t ht => hclean t (List.mem_cons_of_mem _ ht)) fun b hb => ?_
    rw [Function.update_of_ne (hne b hb)]
    exact hleases b (List.mem_cons_of_mem bot hb)

theorem writtenColor_of_mem (hdistinct : (turns.map fun t => t.bot.slot).Nodup) (ht : t ∈ turns) :
    writtenColor turns t.bot.slot = t.outcome.written := by
  induction turns with
  | nil => cases ht
  | cons u turns ih =>
    obtain ⟨hfirst, hrest⟩ := List.nodup_cons.mp hdistinct
    rw [writtenColor, List.findSome?_cons]
    rcases List.mem_cons.mp ht with rfl | ht
    · rw [if_pos rfl]
      cases hw : t.outcome.written with
      | some c => rfl
      | none =>
        dsimp only
        rw [List.findSome?_eq_none_iff]
        intro v hv
        rw [if_neg]
        intro he
        exact hfirst (List.mem_map.mpr ⟨v, hv, he⟩)
    · have hne : u.bot.slot ≠ t.bot.slot := fun he => hfirst (List.mem_map.mpr ⟨t, ht, he.symm⟩)
      rw [if_neg hne]
      exact ih hrest ht

theorem writtenColor_eq_none (h : ∀ t ∈ turns, t.bot.slot ≠ s) : writtenColor turns s = none := by
  rw [writtenColor, List.findSome?_eq_none_iff]
  intro t ht
  rw [if_neg (h t ht)]

theorem repaints_afterWrites : Repaints E team (afterWrites turns) := by
  refine ⟨fun _ => slot_afterWrites, fun p => ?_, fun p => ?_⟩
  · rw [afterWrites]
    cases writtenColor turns p.slot <;> rfl
  · rw [afterWrites]
    cases writtenColor turns p.slot <;> rfl

/-- The list of players a second call of `GetPlayers` returns, if only the plugin wrote. -/
def playersAfter (turns : List Turn) (players : List (Option Player)) : List (Option Player) :=
  players.map (Option.map (afterWrites turns))

/-- Nobody but bots is written to. -/
theorem afterWrites_human (h : ∀ t ∈ turns, isManaged E t.bot = true)
    (hp : isTeamHuman E team p = true) : afterWrites turns p = p := by
  simp only [isTeamHuman, Bool.and_eq_true, Bool.not_eq_true'] at hp
  rw [afterWrites, writtenColor_eq_none, Player.written]
  intro t ht he
  have hbot := h t ht
  rw [isManaged, he] at hbot
  rw [isManaged, hbot] at hp
  cases hp.1.2

theorem Roster.teamBots_nodup (R : Roster) : ((teamBots E team R.players).map fun b => b.slot).Nodup := by
  have hsub : List.Sublist ((R.players.filterMap id).filter (isTeamBot E team))
      (R.players.filterMap id) := List.filter_sublist
  exact ((List.perm_insertionSort BySlot _).map _).nodup_iff.mpr ((hsub.map _).nodup R.distinct)

/-- Every outcome of a pass over bots that are not stuck and do not get stuck, with working writes. -/
theorem clean_of_reconcile (R : Roster)
    (hstuck : ∀ b ∈ teamBots E team R.players, ¬ Stuck E leases b)
    (hgave : ∀ t ∈ (reconcileTeamColors E team R.players leases).2, ∀ c, t.outcome ≠ .gaveUp c)
    (hwrite : ∀ t ∈ (reconcileTeamColors E team R.players leases).2, ∀ c, t.outcome ≠ .failed c) :
    ∀ t ∈ (reconcileTeamColors E team R.players leases).2, t.outcome.Clean := by
  intro t ht
  have hbot := mem_of_botLoop ht
  have hgave := hgave t ht
  have hwrite := hwrite t ht
  obtain ⟨pre, post, hsplit⟩ := List.append_of_mem ht
  obtain ⟨lease, lease', hstep, hlease⟩ := botLoop_step hsplit
  rw [hlease R.teamBots_nodup] at hstep
  generalize t.outcome = o at *
  cases hstep with
  | reserved stuck => exact hstuck _ hbot (stuck_iff.mpr stuck)
  | gaveUp => exact hgave _ rfl
  | failed => exact hwrite _ rfl
  | unset | kept | wrote => trivial

theorem colors_stable (E : Peers) (team : UInt8) (R : Roster) (leases : Leases)
    (tryWrite : Player → Int → Bool)
    (hstuck : ∀ b ∈ teamBots E team R.players, ¬ Stuck E leases b)
    (hgave : ∀ t ∈ (reconcileTeamColors E team R.players leases).2, ∀ c, t.outcome ≠ .gaveUp c)
    (hwrite : ∀ t ∈ (reconcileTeamColors E team R.players leases).2, ∀ c, t.outcome ≠ .failed c) :
    let first := reconcileTeamColors E team R.players leases
    let second := reconcileTeamColors { E with tryWriteTeammateColor := tryWrite } team
      (playersAfter first.2 R.players) first.1
    (second.2.map fun t => (t.bot.slot, t.outcome.assigned)) =
        (first.2.map fun t => (t.bot.slot, t.outcome.assigned)) ∧
      ∀ t ∈ second.2, t.outcome = .unset ∨ ∃ c, t.outcome = .kept c := by
  intro first second
  have hclean : ∀ t ∈ first.2, t.outcome.Clean := clean_of_reconcile R hstuck hgave hwrite
  have hbots : (first.2.map fun t => t.bot) = teamBots E team R.players :=
    reconcile_bots E team R.players leases
  have hdistinct : (first.2.map fun t => t.bot.slot).Nodup := by
    have h : ((teamBots E team R.players).map fun b => b.slot).Nodup := R.teamBots_nodup
    rwa [← hbots, List.map_map] at h
  have hafter : teamBots E team (playersAfter first.2 R.players) = first.2.map Turn.botAfter := by
    rw [playersAfter, repaints_afterWrites.teamBots_eq, ← hbots, List.map_map]
    refine List.map_congr_left fun t ht => ?_
    rw [Function.comp_apply, afterWrites, writtenColor_of_mem hdistinct ht, Turn.botAfter]
  have hhumans : humanColors E team (playersAfter first.2 R.players) =
      humanColors E team R.players := by
    refine repaints_afterWrites.humanColors_eq fun p hp => afterWrites_human (fun t ht => ?_) hp
    have hbot := (mem_teamBots.mp (mem_of_botLoop ht)).2
    rw [isTeamBot, Bool.and_eq_true] at hbot
    exact hbot.2
  have hsettled : (second.2.map fun t => (t.bot.slot, t.outcome)) =
      first.2.map fun t => (t.bot.slot, t.outcome.settled) := by
    have hsecond : second = botLoop { E with tryWriteTeammateColor := tryWrite }
        (humanColors E team R.players) first.1 (first.2.map Turn.botAfter) := by
      rw [← hhumans, ← hafter]
      rfl
    rw [hsecond]
    exact botLoop_again (fun _ hb => inSlots_of_mem_teamBots hb) R.teamBots_nodup hclean
      (fun _ _ => rfl) tryWrite
  constructor
  · have h := congrArg (List.map fun q : Int × Outcome => (q.1, q.2.assigned)) hsettled
    rw [List.map_map, List.map_map] at h
    simpa [Function.comp_def, Outcome.assigned_settled] using h
  · intro t ht
    have hmem : (t.bot.slot, t.outcome) ∈ first.2.map fun t => (t.bot.slot, t.outcome.settled) := by
      rw [← hsettled]
      exact List.mem_map.mpr ⟨t, ht, rfl⟩
    obtain ⟨u, hu, heq⟩ := List.mem_map.mp hmem
    rw [← (Prod.mk.inj heq).2]
    exact Outcome.settled_of_clean (hclean u hu)

/-- A human on slot 0, and two managed bots that have no free color to prefer. -/
def twoBots : Roster where
  players := [
    some { teamNum := 2, slot := 2, isBot := true, compTeammateColor := 2, teammatePreferredColor := 2 },
    none,
    some { teamNum := 2, slot := 1, isBot := true, compTeammateColor := -1, teammatePreferredColor := 0 },
    some { teamNum := 2, slot := 0, isBot := false, steamID := 76561197960265729,
           compTeammateColor := 0, teammatePreferredColor := 1 }]
  distinct := by decide

/-- Slots 1 and 2 are managed, and writes go through. -/
def twoManaged : Peers where
  isManagedBot slot := slot = 1 || slot = 2
  getSlotIncarnation _ := 1
  tryWriteTeammateColor _ _ := true

theorem twoBots_first : ((reconcileTeamColors twoManaged 2 twoBots.players fun _ => {}).2.map
    fun t => (t.bot.slot, t.outcome)) = [(1, .wrote 2), (2, .wrote 3)] := by decide

theorem twoBots_outcome (h : t ∈ (reconcileTeamColors twoManaged 2 twoBots.players fun _ => {}).2) :
    t.outcome = .wrote 2 ∨ t.outcome = .wrote 3 := by
  have hmem : (t.bot.slot, t.outcome) ∈ ([(1, .wrote 2), (2, .wrote 3)] : List (Int × Outcome)) := by
    rw [← twoBots_first]
    exact List.mem_map.mpr ⟨t, h, rfl⟩
  simp only [List.mem_cons, Prod.mk.injEq, List.not_mem_nil, or_false] at hmem
  rcases hmem with ⟨-, ho⟩ | ⟨-, ho⟩
  · exact Or.inl ho
  · exact Or.inr ho

theorem colors_stable_twoBots :
    let first := reconcileTeamColors twoManaged 2 twoBots.players fun _ => {}
    let second := reconcileTeamColors twoManaged 2 (playersAfter first.2 twoBots.players) first.1
    (second.2.map fun t => (t.bot.slot, t.outcome.assigned)) = [(1, some 2), (2, some 3)] := by
  intro first second
  have hstable := colors_stable twoManaged 2 twoBots (fun _ => {}) (fun _ _ => true) (by decide)
    (fun t ht c h => by rcases twoBots_outcome ht with ho | ho <;> rw [ho] at h <;> cases h)
    (fun t ht c h => by rcases twoBots_outcome ht with ho | ho <;> rw [ho] at h <;> cases h)
  refine hstable.1.trans ?_
  decide

end Colors
end Botid
