import Botid.SscOps
import Botid.Bytes

/-! The engine as the plugin sees it through `entity_access`: clients, entities, map and slots. -/
namespace Botid

open ByteMem

/-- The address of an engine object; null pointers are `none`. -/
abbrev Ptr := Nat

/-- Everything a hook reads from or writes to in the engine while it runs. -/
structure World where
  /-- `GetIGameServer()` is not null. -/
  serverAlive : Bool
  /-- `m_Clients`, by slot. -/
  clients : List (Option Ptr)
  /-- A client object sits in one slot. -/
  clients_distinct : ∀ (i j : Nat) (p : Ptr),
    clients[i]? = some (some p) → clients[j]? = some (some p) → i = j
  client : Ptr → Mem
  /-- The entity list: instance and designer name by entity index. -/
  entity : Int → Option (Ptr × Bytes)
  controller : Ptr → Mem
  refEHandle : Ptr → UInt32
  /-- `m_pEntity`, as far as it is read: `none` for null, else whether deletion flags are set. -/
  entityIdentity : Ptr → Option Bool
  /-- `GetClientConnectionType` is not zero. -/
  connected : Int → Bool
  mapName : Bytes
  addonName : Bytes

/-- The engine functions the plugin calls into; they may do anything to the engine's own state. -/
structure EngineCalls where
  /-- `ChangeTeam` through the vtable, `none` where the table has no callable entry. -/
  changeTeam : Ptr → Nat → World → Option World
  /-- `UTIL_Remove`, `none` while its signature is unresolved. -/
  utilRemove : Option (Ptr → World → World)
  /-- `CEntityHandle::GetEntryIndex`. -/
  getEntryIndex : UInt32 → Int

/-- Engine functions that do nothing: no `ChangeTeam` entry, no `UTIL_Remove`. -/
def EngineCalls.idle : EngineCalls := ⟨fun _ _ _ => none, none, fun _ => 0⟩

theorem nodup_solo : ([100] : List Ptr).Nodup := by decide

theorem nodup_duo : ([100, 400] : List Ptr).Nodup := by decide

namespace World

/-- A live server with the given clients in its first slots and nothing else in it. -/
def ofClients (clients : List Ptr) (h : clients.Nodup) : World where
  serverAlive := true
  clients := clients.map some
  clients_distinct := by
    intro i j p hi hj
    simp only [List.getElem?_map, Option.map_eq_some_iff, Option.some.injEq, exists_eq_right] at hi hj
    have hlt := (List.getElem?_eq_some_iff.mp hi).1
    exact (List.getElem?_inj hlt h).mp (hi.trans hj.symm)
  client := fun _ _ => 0
  entity := fun _ => none
  controller := fun _ _ => 0
  refEHandle := fun _ => 0
  entityIdentity := fun _ => none
  connected := fun _ => true
  mapName := []
  addonName := []

def resolveClientBySlot (w : World) (slot : Int) : Option Ptr :=
  if !w.serverAlive then none
  else if 256 < w.clients.length ∨ slot < 0 ∨ (w.clients.length : Int) ≤ slot then none
  else (w.clients[slot.toNat]?).join

def clientListCount (w : World) : Nat :=
  if !w.serverAlive ∨ 256 < w.clients.length then 0 else w.clients.length

/-- `ShrinkClientListTo`: only ever drops the tail of `m_Clients`. -/
def shrinkClientListTo (w : World) (newCount : Nat) : World :=
  if !w.serverAlive ∨ 256 < w.clients.length ∨ w.clients.length ≤ newCount then w
  else
    { w with
      clients := w.clients.take newCount
      clients_distinct := by
        intro i j p hi hj
        rw [List.getElem?_take] at hi hj
        split at hi
        · split at hj
          · exact w.clients_distinct i j p hi hj
          · simp at hj
        · simp at hi }

def resolveEntityInstance (w : World) (entityIndex : Int) : Option (Ptr × Bytes) :=
  if entityIndex ≤ 0 ∨ 0x8000 ≤ entityIndex then none else w.entity entityIndex

/-- The entity at an index when its class name is `cs_player_controller`. -/
def resolveController (w : World) (entityIndex : Int) : Option Ptr :=
  match w.resolveEntityInstance entityIndex with
  | some (p, className) => if className = ascii "cs_player_controller" then some p else none
  | none => none

def isEntityBeingDeleted (w : World) (p : Ptr) : Bool := (w.entityIdentity p).getD true

def isSlotActive (w : World) (slot : Int) : Bool := w.serverAlive && w.connected slot

def engineMapName (w : World) : Bytes := if w.serverAlive then w.mapName else []
def engineAddonName (w : World) : Bytes := if w.serverAlive then w.addonName else []

/-- Rewrite one client object. -/
def onClient (w : World) (p : Ptr) (f : Mem → Mem) : World :=
  { w with client := Function.update w.client p (f (w.client p)) }

/-- Rewrite one controller object. -/
def onController (w : World) (p : Ptr) (f : Mem → Mem) : World :=
  { w with controller := Function.update w.controller p (f (w.controller p)) }

/-- Rewrite a controller that may not have resolved. -/
def onLiveController (w : World) (controller : Option Ptr) (f : Mem → Mem) : World :=
  match controller with
  | some c => w.onController c f
  | none => w

variable {w : World} {s t : Int} {p q : Ptr} {f : Mem → Mem} {controller : Option Ptr}

@[simp] theorem client_onClient_self : (w.onClient p f).client p = f (w.client p) := by
  simp [onClient]

theorem client_onClient_of_ne (h : q ≠ p) : (w.onClient p f).client q = w.client q := by
  simp [onClient, h]

@[simp] theorem client_onController : (w.onController p f).client = w.client := rfl

@[simp] theorem client_onLiveController :
    (w.onLiveController controller f).client = w.client := by
  cases controller <;> rfl

@[simp] theorem controller_onClient : (w.onClient p f).controller = w.controller := rfl

@[simp] theorem controller_onController_self :
    (w.onController p f).controller p = f (w.controller p) := by
  simp [onController]

@[simp] theorem resolveClientBySlot_onClient :
    (w.onClient p f).resolveClientBySlot s = w.resolveClientBySlot s := rfl

@[simp] theorem resolveClientBySlot_onController :
    (w.onController p f).resolveClientBySlot s = w.resolveClientBySlot s := rfl

@[simp] theorem resolveController_onClient {i : Int} :
    (w.onClient p f).resolveController i = w.resolveController i := rfl

@[simp] theorem resolveController_onController {i : Int} :
    (w.onController p f).resolveController i = w.resolveController i := rfl

/-- Two engine states that differ in the contents of client and controller objects only. -/
def OnlyMemory (w w' : World) : Prop := ∃ c d, w' = { w with client := c, controller := d }

theorem OnlyMemory.refl : OnlyMemory w w := ⟨_, _, rfl⟩

theorem OnlyMemory.trans {w₁ w₂ w₃ : World} (h : OnlyMemory w₁ w₂) (h' : OnlyMemory w₂ w₃) :
    OnlyMemory w₁ w₃ := by
  obtain ⟨_, _, rfl⟩ := h
  obtain ⟨c, d, rfl⟩ := h'
  exact ⟨c, d, rfl⟩

theorem onlyMemory_onClient : OnlyMemory w (w.onClient p f) := ⟨_, _, rfl⟩

theorem onlyMemory_onController : OnlyMemory w (w.onController p f) := ⟨_, _, rfl⟩

theorem onlyMemory_onLiveController : OnlyMemory w (w.onLiveController controller f) := by
  cases controller with
  | none => exact .refl
  | some c => exact onlyMemory_onController

theorem OnlyMemory.resolveController {w' : World} {i : Int} (h : OnlyMemory w w') :
    w'.resolveController i = w.resolveController i := by
  obtain ⟨_, _, rfl⟩ := h
  rfl

theorem OnlyMemory.resolveClientBySlot {w' : World} (h : OnlyMemory w w') :
    w'.resolveClientBySlot s = w.resolveClientBySlot s := by
  obtain ⟨_, _, rfl⟩ := h
  rfl

theorem resolveClientBySlot_eq_some (h : w.resolveClientBySlot s = some p) :
    0 ≤ s ∧ w.clients[s.toNat]? = some (some p) := by
  rw [resolveClientBySlot] at h
  split at h
  · simp at h
  · split at h
    · simp at h
    · exact ⟨by omega, Option.join_eq_some_iff.mp h⟩

theorem clientListCount_of_resolve (h : w.resolveClientBySlot s = some p) :
    w.clientListCount = w.clients.length := by
  rw [clientListCount, if_neg]
  rintro (ha | hn)
  · simp [resolveClientBySlot, ha] at h
  · simp [resolveClientBySlot, hn] at h

/-- No client object answers for two slots. -/
theorem resolveClientBySlot_inj (hs : w.resolveClientBySlot s = some p)
    (ht : w.resolveClientBySlot t = some p) : s = t := by
  obtain ⟨hs0, hs⟩ := resolveClientBySlot_eq_some hs
  obtain ⟨ht0, ht⟩ := resolveClientBySlot_eq_some ht
  have := w.clients_distinct _ _ _ hs ht
  omega

end World

end Botid
