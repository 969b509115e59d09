import Botid.SharedMemoryClient
import Mathlib.Data.List.Sort

/-! The teammate colors of the C# plugin: one pass over a team, and the leases it leaves behind. -/
namespace Botid
namespace Colors

def colorUnset : Int := -1
def colorCount : Int := 5
def maxSlots : Int := 64
def maxForceWrites : Int := 3

abbrev csTeamTerrorist : UInt8 := 2
abbrev csTeamCounterTerrorist : UInt8 := 3

/-- A `CCSPlayerController`, as far as the plugin reads it. -/
structure Player where
  isValid : Bool := true
  isHLTV : Bool := false
  teamNum : UInt8
  slot : Int
  isBot : Bool
  steamID : UInt64 := 0
  compTeammateColor : Int
  teammatePreferredColor : Int
  deriving DecidableEq

/-- One slot of `_assignedColors`, `_assignedIncarnations`, `_assignedTeams`, `_colorForceWrites` and
`_colorGaveUp`; as it is here after the constructor and after `ClearColorLease`. -/
structure Lease where
  color : Int := colorUnset
  incarnation : UInt64 := 0
  team : UInt8 := 0
  forceWrites : Int := 0
  gaveUp : Bool := false
  deriving DecidableEq

abbrev Leases := Int → Lease

/-- What a pass asks of others: the shared-memory client, and whether a schema write goes through. -/
structure Peers where
  isManagedBot : Int → Bool
  getSlotIncarnation : Int → UInt64
  tryWriteTeammateColor : Player → Int → Bool

/-- A connected client on the region `m`, and how writes go. -/
def Peers.ofRegion (m : ByteMem.Mem) (tryWrite : Player → Int → Bool) : Peers where
  isManagedBot slot := (SharedMemoryClient.isManagedBot true m slot).getD false
  getSlotIncarnation slot := (SharedMemoryClient.getSlotIncarnation true m slot).getD 0
  tryWriteTeammateColor := tryWrite

/-- `(uint)slot < MaxSlots`. -/
def inSlots (slot : Int) : Bool := 0 ≤ slot && slot < maxSlots

def onTeam (team : UInt8) (player : Player) : Bool :=
  player.isValid && !player.isHLTV && player.teamNum = team

def isManaged (E : Peers) (player : Player) : Bool := inSlots player.slot && E.isManagedBot player.slot

def isTeamBot (E : Peers) (team : UInt8) (player : Player) : Bool :=
  onTeam team player && isManaged E player

def isTeamHuman (E : Peers) (team : UInt8) (player : Player) : Bool :=
  onTeam team player && !isManaged E player && !(player.isBot || player.steamID = 0)

/-- The sets of colors of the source, with the latest addition first. -/
abbrev Taken := List Int

def addTakenColor (taken : Taken) (color : Int) : Taken :=
  if 0 ≤ color ∧ color < colorCount then color :: taken else taken

def isFreeColor (color : Int) (taken : Taken) : Bool :=
  0 ≤ color && color < colorCount && !taken.contains color

/-- The color `ReserveObservedColor` adds to the set, if any. -/
def reserveObservedColor (taken : Taken) (current assigned : Int) : Option Int :=
  if isFreeColor current taken then some current
  else if isFreeColor assigned taken then some assigned
  else none

def humanColors (E : Peers) (team : UInt8) (players : List (Option Player)) : Taken :=
  ((players.filterMap id).filter (isTeamHuman E team)).foldl
    (fun taken p => addTakenColor (addTakenColor taken p.compTeammateColor) p.teammatePreferredColor) []

/-- `left.Slot.CompareTo(right.Slot)` does not put `right` first. -/
def BySlot (left right : Player) : Prop := left.slot ≤ right.slot

instance : DecidableRel BySlot := fun left right => inferInstanceAs (Decidable (left.slot ≤ right.slot))
instance : IsTrans Player BySlot := ⟨fun _ _ _ h h' => Int.le_trans h h'⟩
instance : Std.Total BySlot := ⟨fun left right => Int.le_total left.slot right.slot⟩

/-- The managed bots of the team, by slot. `List.Sort` is not stable, but the list of players has one entry
a slot, so there is one sorted order. -/
def teamBots (E : Peers) (team : UInt8) (players : List (Option Player)) : List Player :=
  ((players.filterMap id).filter (isTeamBot E team)).insertionSort BySlot

/-- The loop over the palette, and `ColorUnset` where it finds nothing. -/
def firstFreeColor (taken : Taken) : Int :=
  match (List.range colorCount.toNat).find? fun i : Nat => !taken.contains (i : Int) with
  | some i => (i : Int)
  | none => colorUnset

def chooseColor (taken : Taken) (valvePreferred current cached : Int) : Int :=
  if isFreeColor valvePreferred taken then valvePreferred
  else if isFreeColor current taken then current
  else if isFreeColor cached taken then cached
  else firstFreeColor taken

/-- The lease belongs to another incarnation or team. -/
def isStale (E : Peers) (lease : Lease) (bot : Player) : Bool :=
  lease.incarnation ≠ E.getSlotIncarnation bot.slot || lease.team ≠ bot.teamNum

def renewLease (E : Peers) (lease : Lease) (bot : Player) : Lease :=
  if isStale E lease bot then { incarnation := E.getSlotIncarnation bot.slot, team := bot.teamNum }
  else lease

/-- How a bot's turn ended. -/
inductive Outcome
  | reserved (color : Option Int)
  | unset
  | kept (color : Int)
  | gaveUp (color : Int)
  | failed (color : Int)
  | wrote (color : Int)
  deriving DecidableEq

/-- What the turn added to the taken colors. -/
def Outcome.added : Outcome → Option Int
  | reserved color => color
  | unset => none
  | kept color | gaveUp color | failed color | wrote color => some color

/-- The color the turn assigned. -/
def Outcome.assigned : Outcome → Option Int
  | reserved _ | unset => none
  | kept color | gaveUp color | failed color | wrote color => some color

/-- One turn of the bot loop, on the bot's own lease. -/
def botTurn (E : Peers) (taken : Taken) (lease : Lease) (bot : Player) : Lease × Outcome :=
  let lease := renewLease E lease bot
  let current := bot.compTeammateColor
  let valvePreferred := bot.teammatePreferredColor
  if lease.gaveUp then (lease, .reserved (reserveObservedColor taken current lease.color))
  else
    let color := chooseColor taken valvePreferred current lease.color
    if color = colorUnset then ({ lease with color := colorUnset }, .unset)
    else
      let lease := { lease with color := color }
      if current = color then (lease, .kept color)
      else if maxForceWrites ≤ lease.forceWrites then ({ lease with gaveUp := true }, .gaveUp color)
      else if E.tryWriteTeammateColor bot color then
        ({ lease with forceWrites := lease.forceWrites + 1 }, .wrote color)
      else (lease, .failed color)

/-- A turn as it is remembered: the bot, whether its lease was reset, and the outcome. -/
structure Turn where
  bot : Player
  reset : Bool
  outcome : Outcome
  deriving DecidableEq

/-- The bot loop, and the turns it took. -/
def botLoop (E : Peers) : Taken → Leases → List Player → Leases × List Turn
  | _, leases, [] => (leases, [])
  | taken, leases, bot :: bots =>
    if inSlots bot.slot then
      let turn := botTurn E taken (leases bot.slot) bot
      let rest := botLoop E (turn.2.added.toList ++ taken) (Function.update leases bot.slot turn.1) bots
      (rest.1, ⟨bot, isStale E (leases bot.slot) bot, turn.2⟩ :: rest.2)
    else botLoop E taken leases bots

def reconcileTeamColors (E : Peers) (team : UInt8) (players : List (Option Player)) (leases : Leases) :
    Leases × List Turn :=
  botLoop E (humanColors E team players) leases (teamBots E team players)

/-- `ReconcileTeammateColors`, with what `GetPlayers` answers for each of the two teams. -/
def reconcileTeammateColors (E : Peers) (isConnected : Bool)
    (getPlayers : UInt8 → List (Option Player)) (leases : Leases) : Leases × List Turn :=
  if isConnected then
    let first := reconcileTeamColors E csTeamTerrorist (getPlayers csTeamTerrorist) leases
    let second := reconcileTeamColors E csTeamCounterTerrorist (getPlayers csTeamCounterTerrorist) first.1
    (second.1, first.2 ++ second.2)
  else (leases, [])

def clearColorLease (leases : Leases) (slot : Int) : Leases := Function.update leases slot {}

def onClientDisconnect (leases : Leases) (slot : Int) : Leases :=
  if inSlots slot then clearColorLease leases slot else leases

variable {E : Peers} {team : UInt8} {taken : Taken} {lease : Lease} {leases : Leases} {bot p : Player}
  {bots : List Player} {players : List (Option Player)} {c : Int}

theorem slot_of_inSlots {slot : Int} (h : inSlots slot = true) : 0 ≤ slot ∧ slot < kShmMaxSlots := by
  rw [inSlots, Bool.and_eq_true, decide_eq_true_eq, decide_eq_true_eq] at h
  exact h

/-- On the plugin's region the managed bots are those that it has adopted and not released. -/
theorem isManaged_ofRegion {shm : Shm} {m : ByteMem.Mem} {tryWrite : Player → Int → Bool}
    (h : RegionOf shm m) : isManaged (.ofRegion m tryWrite) p = true ↔
      inSlots p.slot = true ∧ (shm.slot p.slot).slotState ≠ 0 := by
  rw [isManaged, Bool.and_eq_true]
  refine and_congr_right fun hslot => ?_
  obtain ⟨h0, h1⟩ := slot_of_inSlots hslot
  dsimp only [Peers.ofRegion]
  rw [SharedMemoryClient.isManagedBot_of_region h h0 h1, Option.getD_some, decide_eq_true_eq]

theorem getSlotIncarnation_ofRegion {shm : Shm} {m : ByteMem.Mem} {tryWrite : Player → Int → Bool}
    (h : RegionOf shm m) {slot : Int} (hslot : inSlots slot = true) :
    (Peers.ofRegion m tryWrite).getSlotIncarnation slot = (shm.slot slot).incarnation := by
  obtain ⟨h0, h1⟩ := slot_of_inSlots hslot
  dsimp only [Peers.ofRegion]
  rw [SharedMemoryClient.getSlotIncarnation_of_region h h0 h1, Option.getD_some]

theorem botLoop_cons (h : inSlots bot.slot = true) :
    botLoop E taken leases (bot :: bots) =
      let turn := botTurn E taken (leases bot.slot) bot
      let rest := botLoop E (turn.2.added.toList ++ taken) (Function.update leases bot.slot turn.1) bots
      (rest.1, ⟨bot, isStale E (leases bot.slot) bot, turn.2⟩ :: rest.2) := by
  rw [botLoop, if_pos h]

/-- The five colors. -/
def InPalette (c : Int) : Prop := 0 ≤ c ∧ c < colorCount

theorem isFreeColor_iff : isFreeColor c taken = true ↔ InPalette c ∧ c ∉ taken := by
  simp [isFreeColor, InPalette]

theorem mem_addTakenColor {d : Int} :
    c ∈ addTakenColor taken d ↔ c ∈ taken ∨ (c = d ∧ InPalette c) := by
  rw [addTakenColor]
  split
  · rename_i hd
    rw [List.mem_cons]
    constructor
    · rintro (rfl | hc)
      · exact Or.inr ⟨rfl, hd⟩
      · exact Or.inl hc
    · rintro (hc | ⟨rfl, -⟩)
      · exact Or.inr hc
      · exact Or.inl rfl
  · rename_i hd
    constructor
    · exact Or.inl
    · rintro (hc | ⟨rfl, hc⟩)
      · exact hc
      · exact absurd hc hd

/-- A human teammate shows the color or prefers it. -/
def HumanTakes (E : Peers) (team : UInt8) (players : List (Option Player)) (c : Int) : Prop :=
  ∃ p, some p ∈ players ∧ isTeamHuman E team p = true ∧
    (c = p.compTeammateColor ∨ c = p.teammatePreferredColor)

theorem mem_foldl_addTakenColor {ps : List Player} : c ∈ ps.foldl (fun taken p =>
      addTakenColor (addTakenColor taken p.compTeammateColor) p.teammatePreferredColor) taken ↔
    c ∈ taken ∨ ∃ p ∈ ps, (c = p.compTeammateColor ∨ c = p.teammatePreferredColor) ∧ InPalette c := by
  induction ps generalizing taken with
  | nil => simp
  | cons q ps ih =>
    rw [List.foldl_cons, ih, mem_addTakenColor, mem_addTakenColor]
    simp only [List.mem_cons, or_and_right, exists_or, exists_eq_left, or_assoc]

theorem mem_humanColors :
    c ∈ humanColors E team players ↔ HumanTakes E team players c ∧ InPalette c := by
  rw [humanColors, mem_foldl_addTakenColor, HumanTakes]
  simp only [List.not_mem_nil, false_or, List.mem_filter, List.mem_filterMap, id_eq]
  constructor
  · rintro ⟨p, ⟨⟨o, ho, rfl⟩, hp⟩, hc, hin⟩
    exact ⟨⟨p, ho, hp, hc⟩, hin⟩
  · rintro ⟨⟨p, ho, hp, hc⟩, hin⟩
    exact ⟨p, ⟨⟨some p, ho, rfl⟩, hp⟩, hc, hin⟩

theorem mem_teamBots :
    p ∈ teamBots E team players ↔ some p ∈ players ∧ isTeamBot E team p = true := by
  rw [teamBots, List.mem_insertionSort, List.mem_filter]
  simp

theorem inSlots_of_mem_teamBots (h : p ∈ teamBots E team players) : inSlots p.slot = true := by
  have hp := (mem_teamBots.mp h).2
  simp only [isTeamBot, isManaged, Bool.and_eq_true] at hp
  exact hp.2.1

theorem teamBots_sorted (E : Peers) (team : UInt8) (players : List (Option Player)) :
    (teamBots E team players).Pairwise BySlot :=
  List.pairwise_insertionSort BySlot _

theorem firstFreeColor_spec :
    (firstFreeColor taken = colorUnset ∧ ∀ c, InPalette c → c ∈ taken) ∨
      isFreeColor (firstFreeColor taken) taken = true := by
  rw [firstFreeColor]
  split
  · rename_i i hi
    have hlt := List.mem_range.mp (List.mem_of_find?_eq_some hi)
    have hfree := List.find?_some hi
    rw [isFreeColor_iff, InPalette]
    refine Or.inr ⟨⟨by omega, ?_⟩, by simpa using hfree⟩
    simp only [colorCount] at hlt ⊢
    omega
  · rename_i hnone
    rw [List.find?_eq_none] at hnone
    refine Or.inl ⟨rfl, fun c hc => ?_⟩
    obtain ⟨h0, h5⟩ := hc
    have htaken := hnone c.toNat (List.mem_range.mpr (by omega))
    rw [Int.toNat_of_nonneg h0] at htaken
    simpa using htaken

/-- A chosen color is free; none is chosen only when all five are taken. -/
theorem chooseColor_spec (taken : Taken) (valvePreferred current cached : Int) :
    (chooseColor taken valvePreferred current cached = colorUnset ∧ ∀ c, InPalette c → c ∈ taken) ∨
      isFreeColor (chooseColor taken valvePreferred current cached) taken = true := by
  rw [chooseColor]
  split
  · exact Or.inr ‹_›
  · split
    · exact Or.inr ‹_›
    · split
      · exact Or.inr ‹_›
      · exact firstFreeColor_spec

theorem not_isFreeColor_colorUnset : isFreeColor colorUnset taken = false := by
  rw [Bool.eq_false_iff, ne_eq, isFreeColor_iff]
  rintro ⟨⟨h, -⟩, -⟩
  exact absurd h (by decide)

/-- A reserved color was free. -/
theorem isFreeColor_of_reserved {current assigned : Int}
    (h : reserveObservedColor taken current assigned = some c) : isFreeColor c taken = true := by
  rw [reserveObservedColor] at h
  split at h
  · cases h
    assumption
  · split at h
    · cases h
      assumption
    · cases h

/-- Behind a reservation the observed color is not free, whatever was reserved. -/
theorem not_free_of_reserved {current assigned : Int} :
    isFreeColor current ((reserveObservedColor taken current assigned).toList ++ taken) = false := by
  rw [Bool.eq_false_iff, ne_eq, isFreeColor_iff]
  rintro ⟨hin, hc⟩
  rw [List.mem_append, not_or] at hc
  have hfree : isFreeColor current taken = true := isFreeColor_iff.mpr ⟨hin, hc.2⟩
  rw [reserveObservedColor, if_pos hfree] at hc
  exact hc.1 (by simp)

/-- What a turn can do, on a lease that is of the bot's incarnation and team. -/
inductive TurnStep (E : Peers) (taken : Taken) (lease : Lease) (bot : Player) : Lease → Outcome → Prop
  | reserved (stuck : lease.gaveUp = true) :
    TurnStep E taken lease bot lease
      (.reserved (reserveObservedColor taken bot.compTeammateColor lease.color))
  | unset (live : lease.gaveUp = false) (full : ∀ color, InPalette color → color ∈ taken) :
    TurnStep E taken lease bot { lease with color := colorUnset } .unset
  | kept {color : Int} (live : lease.gaveUp = false) (free : isFreeColor color taken = true)
      (chosen : chooseColor taken bot.teammatePreferredColor bot.compTeammateColor lease.color = color)
      (same : bot.compTeammateColor = color) :
    TurnStep E taken lease bot { lease with color := color } (.kept color)
  | gaveUp {color : Int} (live : lease.gaveUp = false) (free : isFreeColor color taken = true)
      (chosen : chooseColor taken bot.teammatePreferredColor bot.compTeammateColor lease.color = color)
      (spent : maxForceWrites ≤ lease.forceWrites) :
    TurnStep E taken lease bot { lease with color := color, gaveUp := true } (.gaveUp color)
  | wrote {color : Int} (live : lease.gaveUp = false) (free : isFreeColor color taken = true)
      (chosen : chooseColor taken bot.teammatePreferredColor bot.compTeammateColor lease.color = color)
      (left : lease.forceWrites < maxForceWrites) (success : E.tryWriteTeammateColor bot color = true) :
    TurnStep E taken lease bot { lease with color := color, forceWrites := lease.forceWrites + 1 }
      (.wrote color)
  | failed {color : Int} (live : lease.gaveUp = false) (free : isFreeColor color taken = true)
      (chosen : chooseColor taken bot.teammatePreferredColor bot.compTeammateColor lease.color = color)
      (failure : E.tryWriteTeammateColor bot color = false) :
    TurnStep E taken lease bot { lease with color := color } (.failed color)

theorem botTurn_step : TurnStep E taken (renewLease E lease bot) bot
    (botTurn E taken lease bot).1 (botTurn E taken lease bot).2 := by
  unfold botTurn
  dsimp only
  generalize renewLease E lease bot = l
  split
  · rename_i hstuck
    exact .reserved hstuck
  · rename_i hlive
    rw [Bool.not_eq_true] at hlive
    have hspec := chooseColor_spec taken bot.teammatePreferredColor bot.compTeammateColor l.color
    generalize hc : chooseColor taken bot.teammatePreferredColor bot.compTeammateColor l.color = c at *
    rcases hspec with ⟨hunset, hfull⟩ | hfree
    · rw [if_pos hunset]
      exact .unset hlive hfull
    · have hset : c ≠ colorUnset := by
        rintro rfl
        rw [not_isFreeColor_colorUnset] at hfree
        cases hfree
      rw [if_neg hset]
      split
      · exact .kept hlive hfree hc ‹_›
      · split
        · exact .gaveUp hlive hfree hc ‹_›
        · rename_i hleft
          split
          · exact .wrote hlive hfree hc (not_le.mp hleft) ‹_›
          · rename_i hfail
            exact .failed hlive hfree hc (by simpa using hfail)

/-- What a turn adds is in the palette and was free. -/
theorem TurnStep.added_free {lease' : Lease} {o : Outcome} (h : TurnStep E taken lease bot lease' o)
    (ho : o.added = some c) : isFreeColor c taken = true := by
  cases h with
  | reserved => exact isFreeColor_of_reserved ho
  | unset => cases ho
  | kept _ free | gaveUp _ free | wrote _ free | failed _ free =>
    cases ho
    exact free

theorem Outcome.assigned_or_reserved {o : Outcome} (h : o.added = some c) :
    o.assigned = some c ∨ o = .reserved (some c) := by
  cases o with
  | reserved =>
    cases h
    exact Or.inr rfl
  | unset => cases h
  | kept | gaveUp | failed | wrote => exact Or.inl h

theorem Outcome.added_of_assigned {o : Outcome} (h : o.assigned = some c) : o.added = some c := by
  cases o with
  | reserved | unset => cases h
  | kept | gaveUp | failed | wrote => exact h

end Colors
end Botid
