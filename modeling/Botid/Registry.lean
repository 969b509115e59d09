import Botid.Hooks

/-! The registry: the slot table, the pool and what shared memory says, as one abstract machine. -/
namespace Botid

/-- What shared memory says about the identity behind a slot. -/
structure ShmRecord where
  slotState : UInt8
  syntheticSid : UInt64
  personaName : Bytes

/-- The record of a slot that nobody is managed on. -/
def ShmRecord.vacant : ShmRecord := ⟨0, 0, List.replicate kShmNameLen 0⟩

/-- The record `PublishAdopt` writes. -/
def ShmRecord.adopted (b : BotIdentity) : ShmRecord :=
  ⟨1, b.steamId, charCell kShmNameLen b.name⟩

def ShmSlot.record (c : ShmSlot) : ShmRecord := ⟨c.slotState, c.syntheticSid, c.personaName⟩

structure Registry where
  ids : Identities
  mapped : Bool
  record : Int → ShmRecord

namespace Registry

def publish (r : Registry) (s : Int) (c : ShmRecord) : Registry :=
  if r.mapped then { r with record := Function.update r.record s c } else r

/-- `Unmark` alone. -/
def abandon (r : Registry) (s : Int) : Registry := { r with ids := r.ids.unmark s }

/-- `Unmark` together with `PublishRelease`. -/
def vacate (r : Registry) (s : Int) : Registry := (r.abandon s).publish s .vacant

/-- `Mark` an entry that `GetFree` handed out of the pool `bots`. -/
def take (r : Registry) (s : Int) (i : Nat) (bots : List BotIdentity) : Registry :=
  { r with ids := ({ r.ids with bots := bots } : Identities).mark s i }

/-- A disguise that only got as far as `identity->slot = slot`. -/
def claim (r : Registry) (s : Int) (i : Nat) : Registry :=
  { r with ids := r.ids.modifyBot i fun b => { b with slot := s } }

/-- A disguise that was applied and published. -/
def adopt (r : Registry) (s : Int) (i : Nat) (b : BotIdentity) : Registry :=
  ({ r with ids := r.ids.modifyBot i fun b => { b with slot := s, applied := true } } :
    Registry).publish s (.adopted b)

variable {r : Registry} {s t : Int} {i : Nat} {b : BotIdentity} {c : ShmRecord}
  {bots : List BotIdentity}

@[simp] theorem ids_publish : (r.publish s c).ids = r.ids := by
  rw [publish]
  split <;> rfl

@[simp] theorem mapped_publish : (r.publish s c).mapped = r.mapped := by
  rw [publish]
  split <;> rfl

theorem record_publish_self (h : r.mapped = true) : (r.publish s c).record s = c := by
  simp [publish, h]

theorem record_publish_of_ne (h : t ≠ s) : (r.publish s c).record t = r.record t := by
  rw [publish]
  split
  · simp [h]
  · rfl

@[simp] theorem ids_abandon : (r.abandon s).ids = r.ids.unmark s := rfl
@[simp] theorem ids_vacate : (r.vacate s).ids = r.ids.unmark s := by simp [vacate]
@[simp] theorem mapped_abandon : (r.abandon s).mapped = r.mapped := rfl
@[simp] theorem mapped_vacate : (r.vacate s).mapped = r.mapped := by simp [vacate]
@[simp] theorem mapped_take : (r.take s i bots).mapped = r.mapped := rfl
@[simp] theorem mapped_claim : (r.claim s i).mapped = r.mapped := rfl
@[simp] theorem mapped_adopt : (r.adopt s i b).mapped = r.mapped := by simp [adopt]
@[simp] theorem record_abandon : (r.abandon s).record = r.record := rfl
@[simp] theorem record_take : (r.take s i bots).record = r.record := rfl
@[simp] theorem record_claim : (r.claim s i).record = r.record := rfl
@[simp] theorem ids_claim :
    (r.claim s i).ids = r.ids.modifyBot i fun b => { b with slot := s } := rfl
@[simp] theorem ids_adopt :
    (r.adopt s i b).ids = r.ids.modifyBot i fun b => { b with slot := s, applied := true } := by
  simp [adopt]

theorem record_vacate_self (h : r.mapped = true) : (r.vacate s).record s = .vacant :=
  record_publish_self h

theorem record_vacate_of_ne (h : t ≠ s) : (r.vacate s).record t = r.record t :=
  record_publish_of_ne h

theorem record_adopt_self (h : r.mapped = true) : (r.adopt s i b).record s = .adopted b :=
  record_publish_self h

theorem record_adopt_of_ne (h : t ≠ s) : (r.adopt s i b).record t = r.record t :=
  record_publish_of_ne h

end Registry

def Shm.record (shm : Shm) (s : Int) : ShmRecord := (shm.slot s).record

/-- The registry inside a plugin state. -/
def State.registry (st : State) : Registry :=
  { ids := st.ids, mapped := st.shm.mapped, record := st.shm.record }

end Botid
