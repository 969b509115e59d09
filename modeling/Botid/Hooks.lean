import Botid.Commands
import Botid.MapGate
import Botid.Reap

/-! The plugin's hooks, and the system step: the engine moves, then calls one of them. -/
namespace Botid

/-- The state once `GetFree` has answered and `Mark` has run. -/
def markIdentity (st : State) (slot : Int) (botIndex : Nat) (bots : List BotIdentity) (rand : Rand) :
    State :=
  { st with ids := ({ st.ids with bots := bots } : Identities).mark slot botIndex, rand := rand }

/-- `GetFree`, `Mark` and the first disguise of a bot that has just connected. -/
def assignIdentity (st : State) (slot : Int) : State :=
  match getFree st.world.isSlotActive st.ids.bots st.rand with
  | (none, bots, rand) => { st with ids := { st.ids with bots := bots }, rand := rand }
  | (some botIndex, bots, rand) =>
    applyDisguise (markIdentity st slot botIndex bots rand) slot botIndex

/-- The slot's previous occupant leaves the table, shared memory and the open window. -/
def releaseOccupant (st : State) (slot : Int) : State :=
  if st.ids.isManaged slot then
    { st with
      ids := st.ids.unmark slot
      shm := st.shm.publishRelease slot
      vote := resetVoteTransactionSlot st.vote slot }
  else st

/-- `strncmp(pszName, "HLTV", 4) == 0` on a name that is not null. -/
def isHltvName (name : Option Bytes) : Bool := name.any (ascii "HLTV").isPrefixOf

def onClientConnected (st : State) (slot : Int) (name : Option Bytes) (xuid : UInt64)
    (fakePlayer : Bool) : State :=
  if slot < 0 ∨ kMaxSlots ≤ slot ∨ isHltvName name then st
  else
    let released := releaseOccupant st slot
    if st.gate.suspended ∨ xuid ≠ 0 ∨ !fakePlayer then released else assignIdentity released slot

def clientPutInServer (st : State) (slot : Int) : State :=
  if st.gate.suspended ∨ slot < 0 ∨ kMaxSlots ≤ slot then st else applyDisguiseIfPending st slot

/-- The engine when `Disconnect_Pre` reaches `RestoreIdentity`. -/
def worldAtDisconnect (E : EngineCalls) (st : State) (slot : Int) (reason : Int) : World :=
  if isTargetedClientRemovalReason reason then moveManagedBotToSpectator E st.ids st.world slot
  else st.world

def clientDisconnect (E : EngineCalls) (st : State) (slot : Int) (reason : Int) : State :=
  if st.gate.suspended ∨ slot < 0 ∨ kMaxSlots ≤ slot ∨ !st.ids.isManaged slot then st
  else
    let kickRemoval := isTargetedClientRemovalReason reason
    let st :=
      { st with
        vote := resetVoteTransactionSlot st.vote slot
        world := worldAtDisconnect E st slot reason }
    let client := st.world.resolveClientBySlot slot
    let st := restoreIdentity st slot
    let st :=
      match client with
      | some client =>
        if kickRemoval then
          { st with pending := queueControllerRemovalForClient E st.world st.pending client slot }
        else st
      | none => st
    { st with ids := st.ids.unmark slot }

/-- `KickManagedBotByUserId`; user id 65535 marks a leftover and is not kicked. -/
def kickManagedBotByUserId (st : State) (slot : Int) : State :=
  match st.world.resolveClientBySlot slot with
  | none => st
  | some client =>
    let userId := readUserId (st.world.client client)
    if userId = 65535 then st
    else
      { st with
        world := neutralizeCollidingLeftoverUserIds st.ids st.world slot userId
        serverCommands := st.serverCommands ++ [kickIdCommand userId] }

/-- The branch of the kick hook for `bot_kick <persona>` with a managed match. -/
def kickNamedBot (E : EngineCalls) (st : State) (namedSlot : Int) : State :=
  let st := { st with world := moveManagedBotToSpectator E st.ids st.world namedSlot }
  let st :=
    if !st.vote.active ∨ st.populationDepth ≠ 0 then
      let st := beginVoteTransactionForSlot st namedSlot
      { st with populationDepth := st.populationDepth + 1 }
    else st
  kickManagedBotByUserId st namedSlot

/-- The branch for every other kick; only `bot_kick` and `bot_kick all` empty the teams first. -/
def kickGroup (E : EngineCalls) (st : State) (name target : Bytes) : State :=
  let st :=
    if name = ascii "bot_kick" ∧ (target = [] ∨ target = ascii "all") then
      { st with world := forSlots (moveManagedBotToSpectator E st.ids) st.world }
    else st
  if !st.vote.active ∨ st.populationDepth ≠ 0 then
    let st := beginVoteTransaction st
    { st with populationDepth := st.populationDepth + 1 }
  else st

/-- The `Pre` hook; `command` is `none` for an invalid reference. -/
def dispatchConCommandPre (E : EngineCalls) (st : State) (command : Option Bytes)
    (arguments : List Bytes) : State :=
  match command with
  | none => st
  | some name =>
    if st.gate.suspended then st
    else if name = ascii "callvote" then beginVoteTransaction st
    else if isKickCommand name then
      let named := namedBotKickSlot st.ids name arguments
      if 0 ≤ named.1 then kickNamedBot E st named.1
      else if name = ascii "bot_kick" ∧ named.2 ≠ [] ∧ !isBotKickGroupTarget named.2 then st
      else kickGroup E st name named.2
    else if isBotAddCommand name then
      if st.vote.active then forceEndVoteTransaction st else st
    else st

/-- `ApplyPendingDisguises`. -/
def applyPendingDisguises (st : State) : State :=
  if st.gate.suspended then st else forSlots applyDisguiseIfPending st

/-- The two drains and the reap that end every population command. -/
def reapAfterPopulationCommand (E : EngineCalls) (st : State) : State :=
  let first := drainPendingControllerRemovals E st.ids st.pending st.world
  let second := drainPendingControllerRemovals E st.ids first.1 first.2
  { st with pending := second.1, world := reapOrphanControllers E st.ids second.2 }

def scheduleHold (st : State) : State :=
  { st with vote := scheduleVoteTransactionEnd st.vote st.features.voteTransactionHoldFrames }

/-- The depth bookkeeping of a kick command's `Post`. -/
def endKickCommand (st : State) : State :=
  if st.populationDepth = 0 then st
  else
    let st := { st with populationDepth := st.populationDepth - 1 }
    if st.populationDepth = 0 then scheduleHold st else st

def dispatchConCommandPost (E : EngineCalls) (st : State) (command : Option Bytes)
    (arguments : List Bytes) : State :=
  match command with
  | none => st
  | some name =>
    if isMapChangeCommand name then
      let st :=
        match arguments[1]? with
        | some arg => hintMapGate st arg
        | none => st
      pollMapGate st
    else if st.gate.suspended then st
    else if name = ascii "callvote" then if st.vote.active then scheduleHold st else st
    else
      let st := if isKickCommand name then endKickCommand st else st
      if isPopulationCommand name then
        let st := if isBotAddCommand name then applyPendingDisguises st else st
        reapAfterPopulationCommand E st
      else st

/-- One pass of the jitter loop: a fresh ping around the configured one. -/
def jitterSlot (pct : Int) (ids : Identities) (p : Shm × Rand) (slot : Int) : Shm × Rand :=
  if !ids.isManaged slot then p
  else
    match ids.getIdentity slot with
    | none => p
    | some identity =>
      if identity.ping ≤ 0 then p
      else
        let base := identity.ping
        let range := max ((base * pct).tdiv 100) 2
        let jitter := base + (p.2.value : Int) % (2 * range + 1) - range
        (p.1.publishPing slot (min (max jitter 5) 250), p.2.next)

/-- `m_LastJitterTime`, started by the first frame that looks at it. -/
def startedJitterTime (st : State) (nowSec : Float) : Float :=
  if st.lastJitterTime == 0.0 then nowSec else st.lastJitterTime

/-- The wall-clock timer behind the jitter loop. -/
def jitterPings (st : State) (nowSec : Float) : State :=
  if !st.features.enableFakePing then st
  else if nowSec - startedJitterTime st nowSec < 30.0 then
    { st with lastJitterTime := startedJitterTime st nowSec }
  else
    let pct := if 0 < st.features.pingJitterPercent then st.features.pingJitterPercent else 30
    let jittered := forSlots (jitterSlot pct st.ids) (st.shm, st.rand)
    { st with lastJitterTime := nowSec, shm := jittered.1, rand := jittered.2 }

def gameFrame (E : EngineCalls) (st : State) (nowSec : Float) : State :=
  let st := pollMapGate st
  if st.gate.suspended then st
  else
    let st := tickVoteTransaction st
    let drained := drainPendingControllerRemovals E st.ids st.pending st.world
    jitterPings { st with pending := drained.1, world := drained.2 } nowSec

def onLevelInit (st : State) (mapName : Option Bytes) : State :=
  pollMapGate
    (match mapName with
    | some name => if name ≠ [] then applyMapGate st name else st
    | none => st)

/-- The calls the engine makes into the plugin. -/
inductive Hook
  | onClientConnected (slot : Int) (name : Option Bytes) (xuid : UInt64) (fakePlayer : Bool)
  | clientPutInServer (slot : Int)
  | clientDisconnect (slot : Int) (reason : Int)
  | dispatchConCommandPre (command : Option Bytes) (arguments : List Bytes)
  | dispatchConCommandPost (command : Option Bytes) (arguments : List Bytes)
  | gameFrame (nowSec : Float)
  | onLevelInit (mapName : Option Bytes)

/-- The engine as it stands when it calls, and the call. -/
structure Event where
  world : World
  hook : Hook

/-- What a hook does to the plugin and, through it, to the engine. -/
def runHook (E : EngineCalls) (st : State) : Hook → State
  | .onClientConnected slot name xuid fakePlayer => onClientConnected st slot name xuid fakePlayer
  | .clientPutInServer slot => clientPutInServer st slot
  | .clientDisconnect slot reason => clientDisconnect E st slot reason
  | .dispatchConCommandPre command arguments => dispatchConCommandPre E st command arguments
  | .dispatchConCommandPost command arguments => dispatchConCommandPost E st command arguments
  | .gameFrame nowSec => gameFrame E st nowSec
  | .onLevelInit mapName => onLevelInit st mapName

/-- The map names a hook offers to the gate, in order. -/
def State.offers (st : State) : Hook → List Bytes
  | .dispatchConCommandPost (some name) arguments =>
    if isMapChangeCommand name then arguments[1]?.toList ++ [buildMapIdentity st.world] else []
  | .gameFrame _ => [buildMapIdentity st.world]
  | .onLevelInit name => name.toList ++ [buildMapIdentity st.world]
  | _ => []

/-- A hook offers the gate a name that the blacklist matches. -/
def State.OffersBlacklisted (st : State) (hook : Hook) : Prop :=
  ∃ name ∈ st.offers hook, mapNameMatchesBlacklist name st.mapBlacklist = true

/-- The slots whose client a hook may disguise, restore or mark. -/
def State.mayWrite (st : State) : Hook → Int → Prop
  | .onClientConnected slot _ xuid fakePlayer => fun t => t = slot ∧ xuid = 0 ∧ fakePlayer = true
  | _ => fun t => st.ids.isManaged t = true

/-- A connect that gets past every early return and asks `GetFree` for an identity. -/
def State.AsksForIdentity (st : State) (slot : Int) (name : Option Bytes) (xuid : UInt64)
    (fakePlayer : Bool) : Prop :=
  st.gate.suspended = false ∧ 0 ≤ slot ∧ slot < kMaxSlots ∧ isHltvName name = false ∧ xuid = 0 ∧
    fakePlayer = true

/-- The state a hook starts in: the plugin's own, with the engine as it stands by then. -/
def State.withWorld (st : State) (w : World) : State := { st with world := w }

/-- Between hooks the engine may do anything to its own state. -/
def step (E : EngineCalls) (st : State) (ev : Event) : State :=
  runHook E (st.withWorld ev.world) ev.hook

/-- The state `Load` leaves: nothing managed, and the live map already checked. -/
def load (features : PluginFeatures) (mapBlacklist : List Bytes) (pool : LoadedPool)
    (mapped : Bool) (draws : Nat → Nat) (w : World) : State :=
  pollMapGate
    { features
      mapBlacklist
      ids := { bots := pool.bots, slots := fun _ => -1 }
      shm := Shm.init mapped
      rand := { draws }
      world := w }

variable {st : State} {s : Int}

@[simp] theorem world_releaseOccupant : (releaseOccupant st s).world = st.world := by
  rw [releaseOccupant]
  split <;> rfl

@[simp] theorem rand_releaseOccupant : (releaseOccupant st s).rand = st.rand := by
  rw [releaseOccupant]
  split <;> rfl

@[simp] theorem gate_releaseOccupant : (releaseOccupant st s).gate = st.gate := by
  rw [releaseOccupant]
  split <;> rfl

theorem ids_releaseOccupant : (releaseOccupant st s).ids = st.ids.unmark s := by
  rw [releaseOccupant]
  split
  · rfl
  · rw [Identities.unmark_of_not_managed (by simpa using ‹¬ st.ids.isManaged s = true›)]

/-- A connect does nothing, or releases the slot's occupant and stops there, or goes on to assign an
identity. -/
theorem onClientConnected_cases (st : State) (s : Int) (name : Option Bytes) (xuid : UInt64)
    (fakePlayer : Bool) :
    (s < 0 ∨ kMaxSlots ≤ s ∨ isHltvName name = true) ∧
      onClientConnected st s name xuid fakePlayer = st ∨
    0 ≤ s ∧ s < kMaxSlots ∧ isHltvName name = false ∧
      ((st.gate.suspended = true ∨ xuid ≠ 0 ∨ fakePlayer = false) ∧
          onClientConnected st s name xuid fakePlayer = releaseOccupant st s ∨
        (st.gate.suspended = false ∧ xuid = 0 ∧ fakePlayer = true) ∧
          onClientConnected st s name xuid fakePlayer = assignIdentity (releaseOccupant st s) s) := by
  rw [onClientConnected]
  split
  · rename_i h
    exact Or.inl ⟨h, rfl⟩
  · rename_i h
    rw [not_or, not_or, Int.not_lt, Int.not_le, Bool.not_eq_true] at h
    refine Or.inr ⟨h.1, h.2.1, h.2.2, ?_⟩
    dsimp only
    split
    · rename_i hskip
      rw [Bool.not_eq_true'] at hskip
      exact Or.inl ⟨hskip, rfl⟩
    · rename_i hassign
      simp only [not_or, Bool.not_eq_true, ne_eq, not_not, Bool.not_eq_false'] at hassign
      exact Or.inr ⟨hassign, rfl⟩

/-- Without a free entry only the draw is gone; with one, it is marked and applied. -/
theorem assignIdentity_cases (st : State) (s : Int) :
    (∃ bots r', getFree st.world.isSlotActive st.ids.bots st.rand = (none, bots, r') ∧
      assignIdentity st s = { st with rand := r' }) ∨
    ∃ i bots r', getFree st.world.isSlotActive st.ids.bots st.rand = (some i, bots, r') ∧
      assignIdentity st s = applyDisguise (markIdentity st s i bots r') s i := by
  rw [assignIdentity]
  split
  · rename_i bots r' hf
    refine Or.inl ⟨bots, r', hf, ?_⟩
    rw [getFree_none hf]
  · rename_i i bots r' hf
    exact Or.inr ⟨i, bots, r', hf, rfl⟩

/-- A disconnect of a managed slot restores its client and unmarks the slot; what it queues for removal
is left open here. -/
theorem clientDisconnect_cases (E : EngineCalls) (st : State) (s reason : Int) :
    (st.gate.suspended = true ∨ s < 0 ∨ kMaxSlots ≤ s ∨ st.ids.isManaged s = false) ∧
      clientDisconnect E st s reason = st ∨
    (st.gate.suspended = false ∧ 0 ≤ s ∧ s < kMaxSlots ∧ st.ids.isManaged s = true) ∧
      ∃ pending, clientDisconnect E st s reason =
        { restoreIdentity { st with
            vote := resetVoteTransactionSlot st.vote s
            world := worldAtDisconnect E st s reason } s with
          pending := pending
          ids := st.ids.unmark s } := by
  rw [clientDisconnect]
  split
  · rename_i h
    rw [Bool.not_eq_true'] at h
    exact Or.inl ⟨h, rfl⟩
  · rename_i h
    simp only [not_or, Int.not_lt, Int.not_le, Bool.not_eq_true, Bool.not_eq_false'] at h
    refine Or.inr ⟨h, ?_⟩
    generalize hst' : ({ st with
      vote := resetVoteTransactionSlot st.vote s
      world := worldAtDisconnect E st s reason } : State) = st'
    have hids : st.ids.unmark s = (restoreIdentity st' s).ids.unmark s := by
      rw [ids_restoreIdentity, ← hst']
    dsimp only
    rw [hids]
    split
    · split
      · exact ⟨_, rfl⟩
      · exact ⟨_, rfl⟩
    · exact ⟨_, rfl⟩

/-- Before a command: nothing, or with the gate open a window for a vote, one for a kick, or the end of
the window for a `bot_add`. -/
theorem dispatchConCommandPre_cases (E : EngineCalls) (st : State) (command : Option Bytes)
    (arguments : List Bytes) :
    dispatchConCommandPre E st command arguments = st ∨
    st.gate.suspended = false ∧
      (dispatchConCommandPre E st command arguments = beginVoteTransaction st ∨
        (∃ s, dispatchConCommandPre E st command arguments = kickNamedBot E st s) ∨
        (∃ name target, dispatchConCommandPre E st command arguments = kickGroup E st name target) ∨
        command.any isBotAddCommand = true ∧ st.vote.active = true ∧
          dispatchConCommandPre E st command arguments = forceEndVoteTransaction st) := by
  cases command with
  | none => exact Or.inl rfl
  | some name =>
    simp only [dispatchConCommandPre]
    split
    · exact Or.inl rfl
    · rename_i hg
      rw [Bool.not_eq_true] at hg
      split
      · exact Or.inr ⟨hg, Or.inl rfl⟩
      · split
        · split
          · exact Or.inr ⟨hg, Or.inr (Or.inl ⟨_, rfl⟩)⟩
          · split
            · exact Or.inl rfl
            · exact Or.inr ⟨hg, Or.inr (Or.inr (Or.inl ⟨_, _, rfl⟩))⟩
        · split
          · rename_i hadd
            split
            · rename_i hv
              exact Or.inr ⟨hg, Or.inr (Or.inr (Or.inr ⟨hadd, hv, rfl⟩))⟩
            · exact Or.inl rfl
          · exact Or.inl rfl

/-- After a command: a map change offers the gate a hint and the live map; otherwise, with the gate
open, a hold, or the end of a kick with the passes of a population command. -/
theorem dispatchConCommandPost_cases (E : EngineCalls) (st : State) (command : Option Bytes)
    (arguments : List Bytes) :
    dispatchConCommandPost E st command arguments = st ∨
    command.any isMapChangeCommand = true ∧
      (dispatchConCommandPost E st command arguments = pollMapGate st ∨
        ∃ arg, arguments[1]? = some arg ∧
          dispatchConCommandPost E st command arguments = pollMapGate (hintMapGate st arg)) ∨
    (st.gate.suspended = false ∧ command.any isMapChangeCommand = false) ∧
      (dispatchConCommandPost E st command arguments = scheduleHold st ∨
        ∃ st₁, (st₁ = st ∨ st₁ = endKickCommand st) ∧
          (dispatchConCommandPost E st command arguments = st₁ ∨
            dispatchConCommandPost E st command arguments = reapAfterPopulationCommand E st₁ ∨
            command.any isBotAddCommand = true ∧
              dispatchConCommandPost E st command arguments =
                reapAfterPopulationCommand E (applyPendingDisguises st₁))) := by
  cases command with
  | none => exact Or.inl rfl
  | some name =>
    simp only [dispatchConCommandPost, Option.any_some]
    split
    · rename_i hmap
      refine Or.inr (Or.inl ⟨hmap, ?_⟩)
      cases arguments[1]? with
      | none => exact Or.inl rfl
      | some arg => exact Or.inr ⟨arg, rfl, rfl⟩
    · rename_i hmap
      rw [Bool.not_eq_true] at hmap
      split
      · exact Or.inl rfl
      · rename_i hg
        rw [Bool.not_eq_true] at hg
        split
        · split
          · exact Or.inr (Or.inr ⟨⟨hg, hmap⟩, Or.inl rfl⟩)
          · exact Or.inl rfl
        · have hkick : (if isKickCommand name then endKickCommand st else st) = st ∨
              (if isKickCommand name then endKickCommand st else st) = endKickCommand st := by
            split
            · exact Or.inr rfl
            · exact Or.inl rfl
          refine Or.inr (Or.inr ⟨⟨hg, hmap⟩, Or.inr ⟨_, hkick, ?_⟩⟩)
          split
          · split
            · rename_i hadd
              exact Or.inr (Or.inr ⟨hadd, rfl⟩)
            · exact Or.inr (Or.inl rfl)
          · exact Or.inl rfl

end Botid
