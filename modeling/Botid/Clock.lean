import Botid.Hooks

/-! What decides how long a window stays open, and what each hook does to it. -/
namespace Botid

/-- The two depths, the schedule of the end and the switch that resets them. -/
structure Clock where
  holdFrames : Int
  suspended : Bool
  depth : UInt32
  scheduled : Bool
  hold : Int
  population : UInt32
  deriving DecidableEq

def State.clock (st : State) : Clock where
  holdFrames := st.features.voteTransactionHoldFrames
  suspended := st.gate.suspended
  depth := st.vote.depth
  scheduled := st.vote.endScheduled
  hold := st.vote.holdFramesRemaining
  population := st.populationDepth

namespace Clock

def reset (c : Clock) : Clock := { c with depth := 0, scheduled := false, hold := 0 }

/-- The gate has spoken: suspending resets the window, everything else only moves the switch. -/
def gated (c : Clock) (suspended : Bool) : Clock :=
  if suspended ∧ !c.suspended then { c.reset with suspended := true }
  else { c with suspended := suspended }

def opened (c : Clock) : Clock := { c with depth := c.depth + 1 }

/-- A kick counts itself unless a window that no kick holds is already open. -/
def openedForKick (c : Clock) : Clock :=
  if c.depth = 0 ∨ c.population ≠ 0 then
    { c with depth := c.depth + 1, population := c.population + 1 }
  else c

def scheduledEnd (c : Clock) : Clock :=
  if c.depth = 0 then c else { c with hold := min (max c.holdFrames 1) 32, scheduled := true }

def kickEnded (c : Clock) : Clock :=
  if c.population = 0 then c
  else if c.population - 1 = 0 then { c with population := c.population - 1 }.scheduledEnd
  else { c with population := c.population - 1 }

/-- One frame; a window whose server is gone is dropped on the spot. -/
def ticked (c : Clock) (serverAlive : Bool) : Clock :=
  if c.depth = 0 ∧ !c.scheduled then c
  else if !serverAlive then c.reset
  else if !c.scheduled then c
  else if 1 < c.hold then { c with hold := c.hold - 1 }
  else c.reset

/-- What a command does to the clock before it runs. -/
def entered (c : Clock) (name : Bytes) (named : Int × Bytes) : Clock :=
  if c.suspended then c
  else if name = ascii "callvote" then c.opened
  else if isKickCommand name then
    if 0 ≤ named.1 then c.openedForKick
    else if name = ascii "bot_kick" ∧ named.2 ≠ [] ∧ !isBotKickGroupTarget named.2 then c
    else c.openedForKick
  else if isBotAddCommand name ∧ c.depth ≠ 0 then c.reset
  else c

/-- What a command that changes no map does to the clock once it has run. -/
def left (c : Clock) (name : Bytes) : Clock :=
  if c.suspended then c
  else if name = ascii "callvote" then c.scheduledEnd
  else if isKickCommand name then c.kickEnded
  else c

end Clock

variable {E : EngineCalls} {st : State} {s : Int} {i : Nat} {name : Bytes} {w : World}

/-- Two windows with the same counters, whatever their snapshots hold. -/
def Vote.Ticks (v v' : Vote) : Prop :=
  v.depth = v'.depth ∧ v.endScheduled = v'.endScheduled ∧
    v.holdFramesRemaining = v'.holdFramesRemaining

theorem Vote.Ticks.trans {v v' v'' : Vote} (h : v.Ticks v') (h' : v'.Ticks v'') : v.Ticks v'' :=
  ⟨h.1.trans h'.1, h.2.1.trans h'.2.1, h.2.2.trans h'.2.2⟩

@[simp] theorem clock_withWorld : (st.withWorld w).clock = st.clock := rfl

theorem clock_suspended : st.clock.suspended = st.gate.suspended := rfl

theorem active_eq : st.vote.active = decide (st.clock.depth ≠ 0) := rfl

theorem clock_congr (st : State) {st' : State} (hf : st'.features = st.features) (hg : st'.gate = st.gate)
    (hv : st'.vote.Ticks st.vote) (hp : st'.populationDepth = st.populationDepth) :
    st'.clock = st.clock := by
  obtain ⟨hd, he, hh⟩ := hv
  simp only [State.clock, hf, hg, hd, he, hh, hp]

theorem clock_applyDisguise : (applyDisguise st s i).clock = st.clock := by
  rcases applyDisguise_cases st s i with h | ⟨b, -, -, -, ⟨-, h⟩ | ⟨client, -, -, h⟩⟩ <;> rw [h] <;>
    rfl

theorem clock_applyDisguiseIfPending : (applyDisguiseIfPending st s).clock = st.clock := by
  rcases applyDisguiseIfPending_cases st s with h | ⟨i, -, h⟩
  · rw [h]
  · rw [h, clock_applyDisguise]

theorem clock_applyPendingDisguises : (applyPendingDisguises st).clock = st.clock := by
  rw [applyPendingDisguises]
  split
  · rfl
  · refine forSlots_invariant (I := fun st' : State => st'.clock = st.clock) ?_ rfl
    intro st' t h
    rw [clock_applyDisguiseIfPending, h]

theorem ticks_resetVoteTransactionSlot {v : Vote} : (resetVoteTransactionSlot v s).Ticks v := by
  rw [resetVoteTransactionSlot]
  repeat' split
  all_goals exact ⟨rfl, rfl, rfl⟩

theorem clock_releaseManagedSlots : (releaseManagedSlots st).clock = st.clock.reset := by
  obtain ⟨ids, shm, w, -, h⟩ := releaseManagedSlots_eq st
  rw [h]
  rfl

theorem clock_applyMapGate :
    (applyMapGate st name).clock = st.clock.gated (applyMapGate st name).gate.suspended := by
  have hkept : ∀ (b : Bool) (g : Bytes), (b = false ∨ st.gate.suspended = true) →
      State.clock { st with gate := { gateMap := g, suspended := b } } = st.clock.gated b := by
    intro b g hb
    rw [Clock.gated, if_neg]
    · rfl
    · rintro ⟨hb', hs⟩
      rcases hb with rfl | hb
      · simp at hb'
      · simp [State.clock, hb] at hs
  rw [applyMapGate]
  split
  · exact hkept st.gate.suspended st.gate.gateMap (by simp)
  · split
    · cases hg : st.gate.suspended with
      | true => exact hkept true name (Or.inr hg)
      | false =>
        have hreset : State.clock
            { releaseManagedSlots st with gate := { gateMap := name, suspended := true } } =
            { (releaseManagedSlots st).clock with suspended := true } := rfl
        simp only [Bool.false_eq_true, if_false]
        rw [hreset, clock_releaseManagedSlots, Clock.gated, if_pos]
        simp [State.clock, hg]
    · exact hkept false name (Or.inl rfl)

theorem clock_pollMapGate :
    (pollMapGate st).clock = st.clock.gated (pollMapGate st).gate.suspended := by
  rw [pollMapGate]
  split
  · rw [Clock.gated, if_neg (by simp [State.clock])]
    rfl
  · exact clock_applyMapGate

/-- Giving the markers back touches neither depth nor schedule. -/
theorem ticks_restoreSlots {ids : Identities} {v : Vote} :
    (forSlots (restoreSlot ids) (v, w)).1.Ticks v := by
  refine forSlots_invariant (I := fun z : Vote × World => z.1.Ticks v) ?_ ⟨rfl, rfl, rfl⟩
  intro z t h
  unfold restoreSlot
  dsimp only
  repeat' split
  all_goals exact h

theorem ticks_captureOneManagedSlot {ids : Identities} {v : Vote} :
    (captureOneManagedSlot ids v w s).2.1.Ticks v := by
  rw [captureOneManagedSlot]
  split
  · exact ⟨rfl, rfl, rfl⟩
  · dsimp only
    split
    · exact ⟨rfl, rfl, rfl⟩
    · split <;> exact ⟨rfl, rfl, rfl⟩

theorem ticks_reassertNativeVoteMarkers {ids : Identities} {v : Vote} :
    (reassertNativeVoteMarkers ids v w).1.Ticks v := by
  rw [reassertNativeVoteMarkers]
  split
  · exact ⟨rfl, rfl, rfl⟩
  · refine forSlots_invariant (I := fun z : Vote × World => z.1.Ticks v) ?_ ⟨rfl, rfl, rfl⟩
    intro z t h
    unfold reassertSlot
    dsimp only
    repeat' split
    all_goals exact h

theorem clock_closeVoteTransaction : (closeVoteTransaction st).clock = st.clock.reset := by
  rw [closeVoteTransaction, restorePlayerIdentity]
  split
  · rfl
  · refine forSlots_invariant (I := fun st' : State => st'.clock = st.clock.reset) ?_ ?_
    · intro st' t h
      rw [clock_applyDisguiseIfPending, h]
    · exact clock_congr { st with vote := resetVoteTransaction } rfl rfl ticks_restoreSlots rfl

theorem clock_forceEndVoteTransaction (hv : st.clock.depth ≠ 0) :
    (forceEndVoteTransaction st).clock = st.clock.reset := by
  rw [forceEndVoteTransaction, if_neg]
  · exact clock_closeVoteTransaction
  · simp [active_eq, hv]

theorem clock_tickVoteTransaction :
    (tickVoteTransaction st).clock = st.clock.ticked st.world.serverAlive := by
  have hkept : (reassertNativeVoteMarkers st.ids st.vote st.world).1.Ticks st.vote :=
    ticks_reassertNativeVoteMarkers
  rw [tickVoteTransaction, Clock.ticked]
  have hidle : (!st.vote.active ∧ !st.vote.endScheduled) ↔
      (st.clock.depth = 0 ∧ !st.clock.scheduled) := by
    simp [Vote.active, State.clock]
  by_cases h : st.clock.depth = 0 ∧ !st.clock.scheduled
  · rw [if_pos (hidle.mpr h), if_pos h]
  · rw [if_neg (mt hidle.mp h), if_neg h]
    split
    · rfl
    · change State.clock (if !st.clock.scheduled then st else _) = _
      split
      · rfl
      · change State.clock (if 1 < st.clock.hold then _ else _) = _
        split
        · exact clock_congr
            { st with
              vote := { st.vote with holdFramesRemaining := st.vote.holdFramesRemaining - 1 } }
            rfl rfl ⟨hkept.1, hkept.2.1, congrArg (· - 1) hkept.2.2⟩ rfl
        · exact clock_closeVoteTransaction

theorem clock_beginVoteTransaction : (beginVoteTransaction st).clock = st.clock.opened := by
  rw [beginVoteTransaction]
  dsimp only
  split
  · rw [captureManagedSlots]
    refine clock_congr { st with vote := { st.vote with depth := st.vote.depth + 1 } } rfl rfl ?_ rfl
    refine forSlots_invariant (I := fun z : Vote × World =>
      z.1.Ticks { st.vote with depth := st.vote.depth + 1 }) ?_ ⟨rfl, rfl, rfl⟩
    intro z t h
    split
    · exact ticks_captureOneManagedSlot.trans h
    · exact h
  · rfl

theorem clock_beginVoteTransactionForSlot :
    (beginVoteTransactionForSlot st s).clock = st.clock.opened := by
  rw [beginVoteTransactionForSlot]
  dsimp only
  split
  · exact clock_congr { st with vote := { st.vote with depth := st.vote.depth + 1 } } rfl rfl
      (ticks_captureOneManagedSlot.trans ⟨rfl, rfl, rfl⟩) rfl
  · rfl

theorem clock_kickManagedBotByUserId : (kickManagedBotByUserId st s).clock = st.clock := by
  rw [kickManagedBotByUserId]
  split
  · rfl
  · dsimp only
    split <;> rfl

/-- A kick opens a window and counts itself, in whichever way it captures. -/
theorem clock_openForKick {begin : State → State}
    (hbegin : ∀ st, (begin st).clock = st.clock.opened) :
    State.clock
      (if !st.vote.active ∨ st.populationDepth ≠ 0 then
        { begin st with populationDepth := (begin st).populationDepth + 1 }
      else st) = st.clock.openedForKick := by
  have hguard : (!st.vote.active ∨ st.populationDepth ≠ 0) ↔
      (st.clock.depth = 0 ∨ st.clock.population ≠ 0) := by
    simp [Vote.active, State.clock]
  rw [Clock.openedForKick]
  by_cases h : st.clock.depth = 0 ∨ st.clock.population ≠ 0
  · rw [if_pos (hguard.mpr h), if_pos h]
    have hopened := hbegin st
    simp only [Clock.opened, State.clock, Clock.mk.injEq] at hopened ⊢
    obtain ⟨hf, hg, hd, he, hh, hp⟩ := hopened
    exact ⟨hf, hg, hd, he, hh, congrArg (· + 1) hp⟩
  · rw [if_neg (mt hguard.mp h), if_neg h]

theorem clock_kickNamedBot : (kickNamedBot E st s).clock = st.clock.openedForKick := by
  rw [kickNamedBot, clock_kickManagedBotByUserId]
  exact clock_openForKick fun _ => clock_beginVoteTransactionForSlot

theorem clock_kickGroup {target : Bytes} :
    (kickGroup E st name target).clock = st.clock.openedForKick := by
  rw [kickGroup]
  split <;> exact clock_openForKick fun _ => clock_beginVoteTransaction

theorem clock_dispatchConCommandPre {arguments : List Bytes} :
    (dispatchConCommandPre E st (some name) arguments).clock =
      st.clock.entered name (namedBotKickSlot st.ids name arguments) := by
  simp only [dispatchConCommandPre]
  rw [Clock.entered, clock_suspended]
  split
  · rfl
  · split
    · exact clock_beginVoteTransaction
    · split
      · split
        · exact clock_kickNamedBot
        · split
          · rfl
          · exact clock_kickGroup
      · by_cases hadd : isBotAddCommand name = true
        · by_cases hd : st.clock.depth = 0
          · rw [if_pos hadd, if_neg (by simp [active_eq, hd]), if_neg (by simp [hd])]
          · rw [if_pos hadd, if_pos (by simp [active_eq, hd]), if_pos ⟨hadd, hd⟩,
              clock_forceEndVoteTransaction hd]
        · rw [if_neg hadd, if_neg (by simp [hadd])]

theorem clock_scheduleHold : (scheduleHold st).clock = st.clock.scheduledEnd := by
  rw [scheduleHold, scheduleVoteTransactionEnd, Clock.scheduledEnd]
  by_cases hd : st.clock.depth = 0
  · rw [if_pos (by simp [active_eq, hd]), if_pos hd]
  · rw [if_neg (by simp [active_eq, hd]), if_neg hd]
    rfl

theorem clock_endKickCommand : (endKickCommand st).clock = st.clock.kickEnded := by
  rw [endKickCommand, Clock.kickEnded]
  change State.clock (if st.clock.population = 0 then _ else _) = _
  split
  · rfl
  · change State.clock (if st.clock.population - 1 = 0 then _ else _) = _
    split
    · exact clock_scheduleHold
    · rfl

theorem clock_reapAfterPopulationCommand : (reapAfterPopulationCommand E st).clock = st.clock := rfl

theorem clock_dispatchConCommandPost {arguments : List Bytes}
    (hmap : isMapChangeCommand name = false) :
    (dispatchConCommandPost E st (some name) arguments).clock = st.clock.left name := by
  have hreap : ∀ st' : State, State.clock
      (if isPopulationCommand name then
        reapAfterPopulationCommand E
          (if isBotAddCommand name then applyPendingDisguises st' else st')
      else st') = st'.clock := by
    intro st'
    split
    · rw [clock_reapAfterPopulationCommand]
      split
      · exact clock_applyPendingDisguises
      · rfl
    · rfl
  simp only [dispatchConCommandPost, hmap, Bool.false_eq_true, if_false]
  rw [Clock.left, clock_suspended]
  split
  · rfl
  · split
    · by_cases hd : st.clock.depth = 0
      · rw [if_neg (by simp [active_eq, hd]), Clock.scheduledEnd, if_pos hd]
      · rw [if_pos (by simp [active_eq, hd]), clock_scheduleHold]
    · rw [hreap]
      split
      · exact clock_endKickCommand
      · rfl

theorem gated_suspended : st.clock.gated st.gate.suspended = st.clock := by
  rw [Clock.gated, if_neg (by simp [State.clock])]
  rfl

/-- A map change hints, then asks the live map. -/
theorem clock_dispatchConCommandPost_map {arguments : List Bytes}
    (hmap : isMapChangeCommand name = true) :
    ∃ b b', (dispatchConCommandPost E st (some name) arguments).clock =
      (st.clock.gated b).gated b' := by
  have hhint : ∀ hint : Bytes, ∃ b, (hintMapGate st hint).clock = st.clock.gated b := by
    intro hint
    rw [hintMapGate]
    split
    · exact ⟨_, gated_suspended.symm⟩
    · exact ⟨_, clock_applyMapGate⟩
  simp only [dispatchConCommandPost, hmap, if_true]
  cases harg : arguments[1]? with
  | none => exact ⟨st.gate.suspended, _, by rw [gated_suspended]; exact clock_pollMapGate⟩
  | some arg =>
    obtain ⟨b, hb⟩ := hhint arg
    exact ⟨b, _, by rw [← hb]; exact clock_pollMapGate⟩

theorem clock_onLevelInit {mapName : Option Bytes} :
    ∃ b b', (onLevelInit st mapName).clock = (st.clock.gated b).gated b' := by
  unfold onLevelInit
  cases mapName with
  | none => exact ⟨st.gate.suspended, _, by rw [gated_suspended]; exact clock_pollMapGate⟩
  | some name =>
    dsimp only
    split
    · exact ⟨_, _, by rw [← clock_applyMapGate]; exact clock_pollMapGate⟩
    · exact ⟨st.gate.suspended, _, by rw [gated_suspended]; exact clock_pollMapGate⟩

theorem clock_onClientConnected {pszName : Option Bytes} {xuid : UInt64} {fakePlayer : Bool} :
    (onClientConnected st s pszName xuid fakePlayer).clock = st.clock := by
  have hreleased : (releaseOccupant st s).clock = st.clock := by
    rw [releaseOccupant]
    split
    · exact clock_congr st rfl rfl ticks_resetVoteTransactionSlot rfl
    · rfl
  rcases onClientConnected_cases st s pszName xuid fakePlayer with
    ⟨-, h⟩ | ⟨-, -, -, ⟨-, h⟩ | ⟨-, h⟩⟩
  · rw [h]
  · rw [h, hreleased]
  · rcases assignIdentity_cases (releaseOccupant st s) s with ⟨_, _, -, ha⟩ | ⟨i, _, _, -, ha⟩
    · rw [h, ha]
      exact hreleased
    · rw [h, ha]
      exact clock_applyDisguise.trans hreleased

theorem clock_clientPutInServer : (clientPutInServer st s).clock = st.clock := by
  rw [clientPutInServer]
  split
  · rfl
  · exact clock_applyDisguiseIfPending

theorem clock_clientDisconnect {reason : Int} :
    (clientDisconnect E st s reason).clock = st.clock := by
  have hrestore : ∀ st : State, (restoreIdentity st s).clock = st.clock := by
    intro st
    rw [restoreIdentity]
    split <;> rfl
  rcases clientDisconnect_cases E st s reason with ⟨-, h⟩ | ⟨-, pending, h⟩
  · rw [h]
  · rw [h]
    exact (hrestore _).trans (clock_congr st rfl rfl ticks_resetVoteTransactionSlot rfl)

theorem clock_jitterPings {nowSec : Float} : (jitterPings st nowSec).clock = st.clock := by
  rw [jitterPings]
  split
  · rfl
  · split <;> rfl

theorem serverAlive_pollMapGate : (pollMapGate st).world.serverAlive = st.world.serverAlive := by
  rcases @pollMapGate_cases st with ⟨gate, h⟩ | ⟨-, h⟩
  · rw [h]
  · obtain ⟨ids, shm, w, hw, hr⟩ := releaseManagedSlots_eq st
    obtain ⟨_, _, rfl⟩ := hw
    rw [h, hr]

/-- A frame asks the live map; while hosting goes on, an open window then ticks. -/
theorem clock_gameFrame {nowSec : Float} :
    ∃ b : Bool, (gameFrame E st nowSec).clock =
      if b then st.clock.gated true else (st.clock.gated false).ticked st.world.serverAlive := by
  have hpoll : (pollMapGate st).clock = st.clock.gated (pollMapGate st).gate.suspended :=
    clock_pollMapGate
  refine ⟨(pollMapGate st).gate.suspended, ?_⟩
  rw [gameFrame]
  cases hg : (pollMapGate st).gate.suspended with
  | true =>
    rw [hg] at hpoll
    simpa using hpoll
  | false =>
    rw [hg] at hpoll
    simp only [Bool.false_eq_true, if_false]
    rw [clock_jitterPings, ← hpoll, ← serverAlive_pollMapGate, ← clock_tickVoteTransaction]
    rfl

/-- What one hook can do to the clock. -/
inductive Clock.Turn (c : Clock) : Clock → Prop
  | stay : c.Turn c
  | enter (name : Bytes) (named : Int × Bytes) : c.Turn (c.entered name named)
  | leave (name : Bytes) : c.Turn (c.left name)
  | judge (b b' : Bool) : c.Turn ((c.gated b).gated b')
  | suspend : c.Turn (c.gated true)
  | tick (alive : Bool) : c.Turn ((c.gated false).ticked alive)

theorem clock_step {ev : Event} : st.clock.Turn (step E st ev).clock := by
  obtain ⟨w, hook⟩ := ev
  rw [← @clock_withWorld st w, step]
  cases hook with
  | onClientConnected slot pszName xuid fakePlayer =>
    rw [runHook, clock_onClientConnected]
    exact .stay
  | clientPutInServer slot =>
    rw [runHook, clock_clientPutInServer]
    exact .stay
  | clientDisconnect slot reason =>
    rw [runHook, clock_clientDisconnect]
    exact .stay
  | dispatchConCommandPre command arguments =>
    cases command with
    | none => exact .stay
    | some name =>
      rw [runHook, clock_dispatchConCommandPre]
      exact .enter _ _
  | dispatchConCommandPost command arguments =>
    cases command with
    | none => exact .stay
    | some name =>
      cases hmap : isMapChangeCommand name with
      | true =>
        obtain ⟨b, b', hclock⟩ := @clock_dispatchConCommandPost_map E (st.withWorld w) name arguments hmap
        rw [runHook, hclock]
        exact .judge b b'
      | false =>
        rw [runHook, clock_dispatchConCommandPost hmap]
        exact .leave name
  | gameFrame nowSec =>
    obtain ⟨b, hclock⟩ := @clock_gameFrame E (st.withWorld w) nowSec
    rw [runHook, hclock]
    cases b with
    | true => exact .suspend
    | false => exact .tick _
  | onLevelInit mapName =>
    obtain ⟨b, b', hclock⟩ := @clock_onLevelInit (st.withWorld w) mapName
    rw [runHook, hclock]
    exact .judge b b'

/-- A frame in which the window's end is due leaves no window. -/
theorem Clock.depth_of_due {c : Clock} {b alive : Bool} (hs : c.suspended = false)
    (hend : c.scheduled = true) (hhold : c.hold ≤ 1) :
    (if b then c.gated true else (c.gated false).ticked alive).depth = 0 := by
  cases b with
  | true => simp [Clock.gated, hs, Clock.reset]
  | false =>
    rw [if_neg Bool.false_ne_true, Clock.gated, if_neg (by simp), Clock.ticked, if_neg (by simp [hend])]
    split
    · rfl
    · rw [if_neg (by simp [hend]), if_neg (not_lt.mpr hhold)]
      rfl

end Botid
