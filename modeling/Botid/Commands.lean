import Botid.State

/-! Console command names and the target of a named kick. -/
namespace Botid

def isMapChangeCommand (name : Bytes) : Bool :=
  name = ascii "host_workshop_map" ∨ name = ascii "ds_workshop_changelevel" ∨
    name = ascii "changelevel" ∨ name = ascii "map"

def isKickCommand (name : Bytes) : Bool :=
  name = ascii "bot_kick" ∨ name = ascii "kick" ∨ name = ascii "kickid" ∨ name = ascii "banid"

def isBotAddCommand (name : Bytes) : Bool :=
  name = ascii "bot_add" ∨ name = ascii "bot_add_t" ∨ name = ascii "bot_add_ct"

def isPopulationCommand (name : Bytes) : Bool := isKickCommand name || isBotAddCommand name

def isBotKickGroupTarget (target : Bytes) : Bool :=
  target = ascii "all" ∨ target = ascii "t" ∨ target = ascii "ct"

/-- The quotes and blanks that `CopyKickTarget` strips at both ends. -/
def isTargetPadding (c : UInt8) : Bool := c = 34 ∨ c = 39 ∨ c = 32 ∨ c = 9

/-- `CopyKickTarget` into a buffer of 128 bytes. -/
def copyKickTarget (src : Bytes) : Bytes :=
  ((src.dropWhile isTargetPadding).reverse.dropWhile isTargetPadding).reverse.take 127

/-- One pass of the loop in `FindManagedSlotByPersonaName`: the highest match wins. -/
def findPersonaStep (ids : Identities) (name : Bytes) (found slot : Int) : Int :=
  if !ids.isManaged slot then found
  else
    match ids.getIdentity slot with
    | none => found
    | some identity =>
      if identity.name ≠ name then found else if found < 0 ∨ found < slot then slot else found

def findManagedSlotByPersonaName (ids : Identities) (name : Bytes) : Int :=
  if name = [] then -1 else forSlots (findPersonaStep ids name) (-1)

/-- The slot a named `bot_kick` addresses, `-1` for any other command, and the target it names. -/
def namedBotKickSlot (ids : Identities) (commandName : Bytes) (arguments : List Bytes) :
    Int × Bytes :=
  if commandName ≠ ascii "bot_kick" then (-1, [])
  else
    match arguments[1]? with
    | none => (-1, [])
    | some arg =>
      let target := copyKickTarget arg
      if target = [] ∨ isBotKickGroupTarget target then (-1, target)
      else (findManagedSlotByPersonaName ids target, target)

/-- `kickid <userid>` with the newline `ServerCommand` wants. -/
def kickIdCommand (userId : UInt16) : Bytes := ascii ("kickid " ++ toString userId.toNat ++ "\n")

def isTargetedClientRemovalReason (reason : Int) : Bool :=
  reason = 39 ∨ reason = 40 ∨ reason = 41 ∨ (150 ≤ reason ∧ reason ≤ 164)

theorem not_isMapChangeCommand_of_isBotAddCommand {name : Bytes}
    (h : isBotAddCommand name = true) : isMapChangeCommand name = false := by
  simp only [isBotAddCommand, decide_eq_true_eq] at h
  rcases h with rfl | rfl | rfl <;> decide

end Botid
