import Botid.State

/-! `controller_reap`: leftover clients, spectator moves and the deferred controller removals. -/
namespace Botid

def kSpectatorTeam : Nat := 1

/-- The test that the source spells out twice. -/
def leftoverOrEmpty (ids : Identities) (w : World) (slot : Int) : Bool :=
  match w.resolveClientBySlot slot with
  | none => true
  | some client =>
    !ids.isManaged slot && decide (readNetChannel (w.client client) = 0) &&
      decide (readUserId (w.client client) = 65535) &&
      decide (readSignonState (w.client client) = 0) && decide (readSteamId (w.client client) = 0)

def isTrailingLeftoverSlot (ids : Identities) (w : World) (slot : Int) : Bool :=
  leftoverOrEmpty ids w slot

def clientLooksLeftoverOrEmpty (ids : Identities) (w : World) (slot : Int) : Bool :=
  leftoverOrEmpty ids w slot

/-- The loop of `ShrinkTrailingLeftoverClients`, from a count downwards. -/
def keepTrailing (ids : Identities) (w : World) : Nat → Nat
  | 0 => 0
  | keep + 1 => if isTrailingLeftoverSlot ids w keep then keepTrailing ids w keep else keep + 1

def shrinkTrailingLeftoverClients (ids : Identities) (w : World) : World :=
  let count := w.clientListCount
  let keep := keepTrailing ids w count
  if keep = count then w else w.shrinkClientListTo keep

/-- Team 0 by offset, the leftover path for controllers that are being deleted. -/
def World.clearTeam (w : World) (controller : Ptr) : World :=
  w.onController controller fun m => writeControllerTeam m 0

def detachControllerFromTeam (E : EngineCalls) (w : World) (controller : Ptr) : World :=
  let team := readControllerTeam (w.controller controller)
  if team ≠ 2 ∧ team ≠ 3 then w
  else if w.isEntityBeingDeleted controller then w.clearTeam controller
  else (E.changeTeam controller kSpectatorTeam w).getD (w.clearTeam controller)

/-- The user id of the first client whose controller this is. -/
def isControllerReferencedByClient (w : World) (controller : Ptr) : Option UInt16 :=
  allSlots.findSome? fun slot =>
    match w.resolveClientBySlot slot with
    | none => none
    | some client =>
      if w.resolveController (getEntityIndex (w.client client)) = some controller then
        some (readUserId (w.client client))
      else none

def queueControllerRemovalForClient (E : EngineCalls) (w : World)
    (pending : List PendingControllerRemoval) (client : Ptr) (slot : Int) :
    List PendingControllerRemoval :=
  if E.utilRemove.isNone then pending
  else
    match w.resolveController (getEntityIndex (w.client client)) with
    | none => pending
    | some controller =>
      let handle := w.refEHandle controller
      if w.isEntityBeingDeleted controller then pending
      else if pending.any fun item => item.handle = handle then pending
      else pending ++ [{ controller, handle, slot, userId := readUserId (w.client client) }]

/-- What becomes of one queued item: dropped, kept for another frame, or removed. -/
def drainItem (E : EngineCalls) (remove : Ptr → World → World) (w : World)
    (item : PendingControllerRemoval) : Option PendingControllerRemoval × World :=
  match w.resolveController (E.getEntryIndex item.handle) with
  | none => (none, w)
  | some current =>
    if current ≠ item.controller ∨ w.entityIdentity current = none ∨
        w.refEHandle current ≠ item.handle then (none, w)
    else
      let removed := (none, remove current (detachControllerFromTeam E w current))
      match isControllerReferencedByClient w current with
      | none => removed
      | some userId =>
        if userId = 65535 then removed
        else if userId ≠ item.userId then (none, w)
        else if item.referencedFrames = 0 then
          (some { item with referencedFrames := item.referencedFrames + 1 }, w)
        else removed

def drainStep (E : EngineCalls) (remove : Ptr → World → World)
    (p : List PendingControllerRemoval × World) (item : PendingControllerRemoval) :
    List PendingControllerRemoval × World :=
  let drained := drainItem E remove p.2 item
  (p.1 ++ drained.1.toList, drained.2)

def drainPendingControllerRemovals (E : EngineCalls) (ids : Identities)
    (pending : List PendingControllerRemoval) (w : World) : List PendingControllerRemoval × World :=
  if !w.serverAlive then ([], w)
  else
    match E.utilRemove with
    | none => ([], shrinkTrailingLeftoverClients ids w)
    | some remove =>
      let drained := pending.foldl (drainStep E remove) ([], w)
      (drained.1, shrinkTrailingLeftoverClients ids drained.2)

/-- One pass of the loop in `NeutralizeCollidingLeftoverUserIds`. -/
def neutralizeSlot (ids : Identities) (keepSlot : Int) (userId : UInt16) (w : World) (slot : Int) :
    World :=
  if slot = keepSlot then w
  else
    match w.resolveClientBySlot slot with
    | none => w
    | some client =>
      if ids.isManaged slot ∨ readNetChannel (w.client client) ≠ 0 ∨
          readSteamId (w.client client) ≠ 0 ∨ readUserId (w.client client) ≠ userId then w
      else w.onClient client fun m => writeUserId m 65535

def neutralizeCollidingLeftoverUserIds (ids : Identities) (w : World) (keepSlot : Int)
    (userId : UInt16) : World :=
  if keepSlot < 0 ∨ kMaxSlots ≤ keepSlot ∨ userId = 65535 then w
  else forSlots (neutralizeSlot ids keepSlot userId) w

def moveManagedBotToSpectator (E : EngineCalls) (ids : Identities) (w : World) (slot : Int) :
    World :=
  if slot < 0 ∨ kMaxSlots ≤ slot ∨ !ids.isManaged slot then w
  else
    match w.resolveClientBySlot slot with
    | none => w
    | some client =>
      match w.resolveController (getEntityIndex (w.client client)) with
      | none => w
      | some controller =>
        let team := readControllerTeam (w.controller controller)
        if w.isEntityBeingDeleted controller ∨ (team ≠ 2 ∧ team ≠ 3) then w
        else (E.changeTeam controller kSpectatorTeam w).getD w

/-- One pass of the loop in `ReapOrphanControllers`, for the entity behind a slot. -/
def reapOrphan (E : EngineCalls) (ids : Identities) (remove : Ptr → World → World) (w : World)
    (slot : Int) : World :=
  match w.resolveController (slot + 1) with
  | none => w
  | some controller =>
    let team := readControllerTeam (w.controller controller)
    if !clientLooksLeftoverOrEmpty ids w slot ∨ (team ≠ 2 ∧ team ≠ 3) then w
    else
      let w := detachControllerFromTeam E w controller
      if w.isEntityBeingDeleted controller then w else remove controller w

def reapOrphanControllers (E : EngineCalls) (ids : Identities) (w : World) : World :=
  match E.utilRemove with
  | none => w
  | some remove => if !w.serverAlive then w else forSlots (reapOrphan E ids remove) w

end Botid
