import Botid.Copies
import Botid.Disguise

/-! `vote_transaction`: the window in which managed slots carry Valve's native bot markers. -/
namespace Botid

def applyNativeVoteMarkers (w : World) (snapshot : VoteSlotSnapshot) (client : Ptr)
    (controller : Option Ptr) : VoteSlotSnapshot × World :=
  let w := (w.onClient client setFakePlayer).onLiveController controller setControllerFakeClientFlag
  let scanned := scanAndZeroSteamIdCopies w snapshot client controller
  (scanned.1, scanned.2.onClient client fun m => writeSteamId m 0)

/-- The snapshot `CaptureOneManagedSlot` fills in before it writes any marker. -/
def takeSnapshot (w : World) (slot : Int) (client : Ptr) : VoteSlotSnapshot :=
  let m := w.client client
  let snapshot : VoteSlotSnapshot :=
    { captured := true
      slot := slot
      client := some client
      entityIndex := getEntityIndex m
      connectionFlags := m offConnectionTypeFlags
      fakePlayer := m offFakePlayer
      sscSteamId := readSteamId m }
  match w.resolveController (getEntityIndex m) with
  | none => snapshot
  | some c =>
    { snapshot with
      hasController := true
      controller := some c
      controllerHandle := w.refEHandle c
      controllerFlags := controllerFlags (w.controller c)
      controllerOff1800 := readControllerSteamId (w.controller c) }

def Vote.setSnapshot (v : Vote) (slot : Int) (snapshot : VoteSlotSnapshot) : Vote :=
  { v with snapshots := Function.update v.snapshots slot snapshot }

/-- Whether the slot was captured, with the snapshots and the engine afterwards. -/
def captureOneManagedSlot (ids : Identities) (v : Vote) (w : World) (slot : Int) :
    Bool × Vote × World :=
  if slot < 0 ∨ kMaxSlots ≤ slot then (false, v, w)
  else
    let v := v.setSnapshot slot {}
    if !ids.isManaged slot then (false, v, w)
    else
      match w.resolveClientBySlot slot with
      | none => (false, v, w)
      | some client =>
        let snapshot := takeSnapshot w slot client
        let marked := applyNativeVoteMarkers w snapshot client snapshot.controller
        (true, v.setSnapshot slot marked.1, marked.2)

def Vote.clearSnapshots (v : Vote) : Vote := { v with snapshots := fun _ => {} }

/-- `CaptureAndRestoreNativeBotIdentity`. -/
def captureManagedSlots (ids : Identities) (v : Vote) (w : World) : Vote × World :=
  let captured :=
    forSlots
      (fun (p : Vote × World) slot =>
        if ids.isManaged slot then (captureOneManagedSlot ids p.1 p.2 slot).2 else p)
      (v.clearSnapshots, w)
  ({ captured.1 with valid := true }, captured.2)

def snapshotControllerLive (w : World) (snapshot : VoteSlotSnapshot) (currentClient : Ptr) :
    Option Ptr :=
  if !snapshot.hasController then none
  else
    match w.resolveController (getEntityIndex (w.client currentClient)) with
    | none => none
    | some c =>
      if some c ≠ snapshot.controller ∨ w.refEHandle c ≠ snapshot.controllerHandle then none
      else some c

/-- One pass of the loop in `ReassertNativeVoteMarkers`. -/
def reassertSlot (ids : Identities) (p : Vote × World) (slot : Int) : Vote × World :=
  let snapshot := p.1.snapshots slot
  if !snapshot.captured ∨ !ids.isManaged snapshot.slot then p
  else
    match p.2.resolveClientBySlot snapshot.slot with
    | none => p
    | some client =>
      if some client ≠ snapshot.client then p
      else
        let controller := snapshotControllerLive p.2 snapshot client
        let marked := applyNativeVoteMarkers p.2 snapshot client controller
        (p.1.setSnapshot slot marked.1, marked.2)

def reassertNativeVoteMarkers (ids : Identities) (v : Vote) (w : World) : Vote × World :=
  if !v.valid then (v, w) else forSlots (reassertSlot ids) (v, w)

/-- What the window's end writes back to one captured client and its controller. -/
def replayDisguise (w : World) (snapshot : VoteSlotSnapshot) (client : Ptr) : World :=
  let w := w.onClient client fun m => writeSteamId (clearFakePlayer m) snapshot.sscSteamId
  let controller := snapshotControllerLive w snapshot client
  restoreSteamIdCopies (w.onLiveController controller clearControllerFakeClientFlag) snapshot client
    controller

/-- One pass of the first loop in `RestorePlayerIdentity`. -/
def restoreSlot (ids : Identities) (p : Vote × World) (slot : Int) : Vote × World :=
  let snapshot := p.1.snapshots slot
  if !snapshot.captured then p
  else
    let v := p.1.setSnapshot slot { snapshot with captured := false }
    if !ids.isManaged snapshot.slot then (v, p.2)
    else
      match p.2.resolveClientBySlot snapshot.slot with
      | none => (v, p.2)
      | some client =>
        if some client ≠ snapshot.client then (v, p.2) else (v, replayDisguise p.2 snapshot client)

/-- The captured slots first, then every disguise that was deferred. -/
def restorePlayerIdentity (st : State) : State :=
  if !st.vote.valid then st
  else
    let restored := forSlots (restoreSlot st.ids) ({ st.vote with valid := false }, st.world)
    forSlots applyDisguiseIfPending { st with vote := restored.1, world := restored.2 }

def beginVoteTransaction (st : State) : State :=
  let vote := { st.vote with depth := st.vote.depth + 1 }
  if st.vote.depth = 0 then
    let captured := captureManagedSlots st.ids vote st.world
    { st with vote := captured.1, world := captured.2 }
  else { st with vote := vote }

def beginVoteTransactionForSlot (st : State) (slot : Int) : State :=
  let vote := { st.vote with depth := st.vote.depth + 1 }
  if st.vote.depth = 0 then
    let captured := captureOneManagedSlot st.ids vote.clearSnapshots st.world slot
    { st with vote := { captured.2.1 with valid := captured.1 }, world := captured.2.2 }
  else { st with vote := vote }

def scheduleVoteTransactionEnd (v : Vote) (frames : Int) : Vote :=
  if !v.active then v
  else { v with holdFramesRemaining := min (max frames 1) 32, endScheduled := true }

/-- `ResetVoteTransaction` leaves every global at its initial value. -/
def resetVoteTransaction : Vote := {}

def resetVoteTransactionSlot (v : Vote) (slot : Int) : Vote :=
  if slot < 0 ∨ kMaxSlots ≤ slot then v
  else if !(v.snapshots slot).captured then v
  else v.setSnapshot slot {}

/-- The common end of `TickVoteTransaction` and `ForceEndVoteTransaction`. -/
def closeVoteTransaction (st : State) : State :=
  restorePlayerIdentity
    { st with
      vote := { st.vote with holdFramesRemaining := 0, endScheduled := false, depth := 0 } }

def forceEndVoteTransaction (st : State) : State :=
  if !st.vote.active ∧ !st.vote.endScheduled then st else closeVoteTransaction st

def tickVoteTransaction (st : State) : State :=
  if !st.vote.active ∧ !st.vote.endScheduled then st
  else if !st.world.serverAlive then { st with vote := resetVoteTransaction }
  else if !st.vote.endScheduled then st
  else if 1 < st.vote.holdFramesRemaining then
    let reasserted := reassertNativeVoteMarkers st.ids st.vote st.world
    { st with
      vote :=
        { reasserted.1 with holdFramesRemaining := reasserted.1.holdFramesRemaining - 1 }
      world := reasserted.2 }
  else closeVoteTransaction st

end Botid
