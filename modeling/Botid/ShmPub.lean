import Botid.Bytes
import Mathlib.Logic.Function.Basic

/-! `shm_pub`: the per-slot cells of the shared-memory region and the publishers over them. -/
namespace Botid

def kShmMaxSlots : Int := 64
def kShmNameLen : Nat := 32
def kCrosshairLen : Nat := 64

/-- The cells one slot owns. -/
structure ShmSlot where
  slotState : UInt8 := 0
  syntheticSid : UInt64 := 0
  personaName : Bytes := List.replicate kShmNameLen 0
  currentPing : Int := 0
  crosshair : Bytes := List.replicate kCrosshairLen 0
  scoreboardFlair : UInt32 := 0
  incarnation : UInt64 := 0

/-- The region: whether `s_ShmView` is mapped, and the cells by slot. -/
structure Shm where
  mapped : Bool
  slot : Int → ShmSlot

namespace Shm

/-- `InitSharedMemory` zeroes the whole region. -/
def init (mapped : Bool) : Shm := { mapped, slot := fun _ => {} }

/-- The guard every publisher starts with, then one slot's cells rewritten. -/
def publish (shm : Shm) (s : Int) (write : ShmSlot → ShmSlot) : Shm :=
  if !shm.mapped ∨ s < 0 ∨ kShmMaxSlots ≤ s then shm
  else { shm with slot := Function.update shm.slot s (write (shm.slot s)) }

def publishAdopt (shm : Shm) (s : Int) (steamId : UInt64) (name : Bytes) : Shm :=
  shm.publish s fun c =>
    { c with slotState := 1, syntheticSid := steamId, personaName := charCell kShmNameLen name }

def publishRelease (shm : Shm) (s : Int) : Shm :=
  shm.publish s fun c =>
    { c with slotState := 0, syntheticSid := 0, personaName := List.replicate kShmNameLen 0 }

def publishPing (shm : Shm) (s : Int) (ping : Int) : Shm :=
  shm.publish s fun c => { c with currentPing := ping }

def publishCrosshair (shm : Shm) (s : Int) (code : Bytes) : Shm :=
  shm.publish s fun c => { c with crosshair := charCell kCrosshairLen code }

def publishScoreboardFlair (shm : Shm) (s : Int) (itemDefIndex : UInt32) : Shm :=
  shm.publish s fun c => { c with scoreboardFlair := itemDefIndex }

def bumpIncarnation (shm : Shm) (s : Int) : Shm :=
  shm.publish s fun c => { c with incarnation := c.incarnation + 1 }

variable {shm : Shm} {s t : Int} {f g : ShmSlot → ShmSlot}

@[simp] theorem mapped_publish : (shm.publish s f).mapped = shm.mapped := by
  rw [publish]
  split <;> rfl

theorem slot_publish_of_ne (h : t ≠ s) : (shm.publish s f).slot t = shm.slot t := by
  rw [publish]
  split
  · rfl
  · exact Function.update_of_ne h _ _

theorem slot_publish (hm : shm.mapped = true) (hs : 0 ≤ s) (hs' : s < kShmMaxSlots) :
    (shm.publish s f).slot s = f (shm.slot s) := by
  rw [publish, if_neg (by simp [hm]; omega)]
  exact Function.update_self _ _ _

end Shm

end Botid
