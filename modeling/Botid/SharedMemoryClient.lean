import Botid.ShmRegion
import Mathlib.Data.List.GetD

/-! The region's consumer in C#, and the table of independent records it gets to see. -/
namespace Botid

open ByteMem Machine

namespace SharedMemoryClient

def magic : UInt32 := 0x44494842
def version : UInt32 := 1
def maxSlots : Int := 64
def nameLen : Nat := 32

def offMagic : Nat := 0
def offVersion : Nat := 4
def offMaxSlots : Nat := 8
def offSlotState : Nat := 16
def offSyntheticSid : Nat := 80
def offPersonaName : Nat := 592
def offIncarnation : Nat := 13216
def totalSize : Nat := 1064960

variable {α : Type}

/-- A read through the view accessor, which throws past the end of the view. -/
def viewRead (off size : Nat) (value : α) : Option α :=
  if off + size ≤ totalSize then some value else none

def readByte (m : Mem) (off : Nat) : Option UInt8 := viewRead off 1 (m off)
def readUInt32 (m : Mem) (off : Nat) : Option UInt32 := viewRead off 4 (UInt32.ofNat (readLE m off 4))
def readUInt64 (m : Mem) (off : Nat) : Option UInt64 := viewRead off 8 (UInt64.ofNat (readLE m off 8))
def readArray (m : Mem) (off count : Nat) : Option Bytes := viewRead off count (readBytes m off count)

/-- `TryConnect` on a region that exists; `connected` is `_view != null`. -/
def tryConnect (connected : Bool) (m : Mem) : Bool :=
  connected || (readUInt32 m offMagic = some magic && readUInt32 m offVersion = some version &&
    readUInt32 m offMaxSlots = some (UInt32.ofNat maxSlots.toNat))

def valid (connected : Bool) (m : Mem) (slot : Int) : Bool :=
  tryConnect connected m && 0 ≤ slot && slot < maxSlots

def isManagedBot (connected : Bool) (m : Mem) (slot : Int) : Option Bool :=
  if valid connected m slot then (readByte m (offSlotState + slot.toNat)).map fun b => b ≠ 0
  else some false

def getBotSteamId (connected : Bool) (m : Mem) (slot : Int) : Option UInt64 :=
  if valid connected m slot then readUInt64 m (offSyntheticSid + slot.toNat * 8) else some 0

def getSlotIncarnation (connected : Bool) (m : Mem) (slot : Int) : Option UInt64 :=
  if valid connected m slot then readUInt64 m (offIncarnation + slot.toNat * 8) else some 0

/-- The bytes that `GetPersonaName` decodes; without a NUL all of them. -/
def getPersonaName (connected : Bool) (m : Mem) (slot : Int) : Option Bytes :=
  if !valid connected m slot then some []
  else (readArray m (offPersonaName + slot.toNat * nameLen) nameLen).map fun buf =>
    buf.take (buf.findIdx (· = 0))

/-- The loop of `GetManagedSlots`, over the slots still to look at. -/
def managedFrom (m : Mem) : List Nat → List Int → Option (List Int)
  | [], list => some list
  | s :: slots, list =>
    (readByte m (offSlotState + s)).bind fun b =>
      managedFrom m slots (if b = 0 then list else list ++ [(s : Int)])

def getManagedSlots (connected : Bool) (m : Mem) : Option (List Int) :=
  if tryConnect connected m then managedFrom m (List.range maxSlots.toNat) [] else some []

end SharedMemoryClient

/-- The region holds the header and, slot by slot, the cells of the table. -/
structure RegionOf (shm : Shm) (m : Mem) : Prop where
  magic : readLE m 0 4 = kShmMagic.toNat
  version : readLE m 4 4 = kShmVersion.toNat
  maxSlots : readLE m 8 4 = kShmMaxSlots.toNat
  cells : ∀ s, 0 ≤ s → s < kShmMaxSlots → cellsAt m s = shm.slot s

/-- The byte-level view refines the table, mapped or not. -/
def ShmView.Refines (view : ShmView) (shm : Shm) : Prop :=
  match view with
  | none => shm.mapped = false
  | some m => shm.mapped = true ∧ RegionOf shm m

/-- A publisher's call on the table. -/
def Shm.call (shm : Shm) (s : Int) (c : SlotCall) : Shm :=
  shm.publish s fun cells => run ShmSlot.store cells c.stores

variable {shm : Shm} {view : ShmView} {m : Mem} {s : Int} {c : SlotCall}

/-- The publishers of the plugin's model are these calls. -/
theorem Shm.call_eq (steamId : UInt64) (name code : Bytes) (ping : Int32) (itemDefIndex : UInt32) :
    shm.call s (.adopt steamId (some name)) = shm.publishAdopt s steamId name ∧
      shm.call s .release = shm.publishRelease s ∧
      shm.call s (.ping ping) = shm.publishPing s ping.toInt ∧
      shm.call s (.crosshair (some code)) = shm.publishCrosshair s code ∧
      shm.call s (.scoreboardFlair itemDefIndex) = shm.publishScoreboardFlair s itemDefIndex ∧
      shm.call s .bumpIncarnation = shm.bumpIncarnation s :=
  ⟨rfl, rfl, rfl, rfl, rfl, rfl⟩

theorem initSharedMemory_byte {a : Nat} (mapping : Mem) (ha : 12 ≤ a) (ha' : a < kShmTotalSize) :
    ∀ m ∈ (initSharedMemory none (some mapping)).2, m a = 0 := by
  rintro m ⟨⟩
  rw [writeLE_out (by omega), writeLE_out (by omega), writeLE_out (by omega), memset, writeBytes,
    if_pos (by simpa using ha'), List.getD_replicate 0 (by omega)]

theorem cellsAt_of_zero (h : ∀ a, 12 ≤ a → a < kShmTotalSize → m a = 0) (hs : 0 ≤ s)
    (hs' : s < kShmMaxSlots) : cellsAt m s = {} := by
  have hbyte : ∀ k : Cell, ∀ j < k.size, m (k.ptr s + j) = 0 := by
    intro k j hj
    have hbounds := @Cell.ptr_bounds k s hs hs'
    exact h _ (by omega) (by omega)
  have hword : ∀ k : Cell, readLE m (k.ptr s) k.size = 0 := by
    intro k
    rw [readLE_eq_iff (Nat.pow_pos (by omega))]
    intro j hj
    rw [hbyte k j hj, Nat.zero_div]
    rfl
  have hbytes : ∀ k : Cell, readBytes m (k.ptr s) k.size = List.replicate k.size 0 := by
    intro k
    rw [readBytes_eq_iff List.length_replicate]
    intro j hj
    rw [hbyte k j hj, List.getD_replicate 0 hj]
  have hstate := hbyte .slotState 0 (by decide)
  have hsid := hword .syntheticSid
  have hname := hbytes .personaName
  have hping := hword .currentPing
  have hcrosshair := hbytes .crosshair
  have hflair := hword .scoreboardFlair
  have hincarnation := hword .incarnation
  simp only [Cell.ptr, Cell.size, Nat.add_zero] at hstate hsid hname hping hcrosshair hflair hincarnation
  simp only [cellsAt, hstate, hsid, hname, hping, hcrosshair, hflair, hincarnation]
  rfl

theorem refines_initSharedMemory (mapping : Option Mem) :
    ShmView.Refines (initSharedMemory none mapping).2 (Shm.init (initSharedMemory none mapping).1) := by
  cases mapping with
  | none => rfl
  | some mapping =>
    have hzero : ∀ a, 12 ≤ a → a < kShmTotalSize →
        ∀ m ∈ (initSharedMemory none (some mapping)).2, m a = 0 :=
      fun a => initSharedMemory_byte mapping
    simp only [initSharedMemory, Option.mem_def, Option.some.injEq, forall_eq'] at hzero ⊢
    refine ⟨rfl, ?_, ?_, ?_, fun s hs hs' => cellsAt_of_zero hzero hs hs'⟩
    · rw [readLE_writeLE_of_disjoint (by omega), readLE_writeLE_of_disjoint (by omega),
        readLE_writeLE (by decide)]
    · rw [readLE_writeLE_of_disjoint (by omega), readLE_writeLE (by decide)]
    · rw [readLE_writeLE (by decide)]

/-- Each call on the bytes is the call on the table. -/
theorem refines_call (h : view.Refines shm) : (view.call s c).Refines (shm.call s c) := by
  by_cases hrange : s < 0 ∨ kShmMaxSlots ≤ s
  · have hcall : shm.call s c = shm := if_pos (Or.inr hrange)
    rwa [call_out_of_range hrange, hcall]
  · cases view with
    | none =>
      have hcall : shm.call s c = shm := if_pos (Or.inl (by simp [show shm.mapped = false from h]))
      have hview : ShmView.call none s c = none := by
        cases c <;> exact if_neg hrange
      rwa [hcall, hview]
    | some m =>
      obtain ⟨hm, hregion⟩ := h
      obtain ⟨m', hm', hstored⟩ := @stored_call m s c (by omega) (by omega)
      have hheader : ∀ off ≤ 8, readLE m' off 4 = readLE m off 4 := by
        intro off hoff
        apply readLE_congr
        intro k hk
        exact hstored.outside _ (by omega)
      rw [hm']
      refine ⟨Shm.mapped_publish.trans hm, ?_⟩
      constructor
      · rw [hheader 0 (by omega), hregion.magic]
      · rw [hheader 4 (by omega), hregion.version]
      · rw [hheader 8 (by omega), hregion.maxSlots]
      · intro t ht ht'
        rw [hstored.cells t ht ht', hregion.cells t ht ht', Shm.call]
        split
        · subst t
          rw [Shm.slot_publish hm ht ht']
        · rw [Shm.slot_publish_of_ne ‹_›]

/-- What is known about a slot: the arguments it was last given, and how often it was bumped. -/
structure SlotRecord where
  managed : Bool := false
  steamId : UInt64 := 0
  name : Bytes := []
  ping : Int32 := 0
  crosshair : Bytes := []
  scoreboardFlair : UInt32 := 0
  bumps : Nat := 0

/-- A release forgets the occupant; an adoption without a name keeps the name there is. -/
def SlotRecord.after (r : SlotRecord) : SlotCall → SlotRecord
  | .adopt steamId name => { r with managed := true, steamId, name := name.getD r.name }
  | .release => { r with managed := false, steamId := 0, name := [] }
  | .ping ping => { r with ping }
  | .crosshair code => { r with crosshair := code.getD [] }
  | .scoreboardFlair itemDefIndex => { r with scoreboardFlair := itemDefIndex }
  | .bumpIncarnation => { r with bumps := r.bumps + 1 }

/-- The record of a slot, from the calls that name it and from no others. -/
def recordOf (s : Int) (calls : List (Int × SlotCall)) : SlotRecord :=
  ((calls.filter (·.1 = s)).map Prod.snd).foldl SlotRecord.after {}

def SlotRecord.cells (r : SlotRecord) : ShmSlot where
  slotState := if r.managed then 1 else 0
  syntheticSid := r.steamId
  personaName := charCell kShmNameLen r.name
  currentPing := r.ping.toInt
  crosshair := charCell kCrosshairLen r.crosshair
  scoreboardFlair := r.scoreboardFlair
  incarnation := UInt64.ofNat r.bumps

theorem SlotRecord.slotState_ne_zero {r : SlotRecord} : r.cells.slotState ≠ 0 ↔ r.managed = true := by
  rw [SlotRecord.cells]
  split <;> simp_all

theorem SlotRecord.cells_after (r : SlotRecord) :
    (r.after c).cells = run ShmSlot.store r.cells c.stores := by
  cases c with
  | adopt steamId name => cases name <;> rfl
  | bumpIncarnation =>
    have hbumps : UInt64.ofNat (r.bumps + 1) = UInt64.ofNat r.bumps + 1 := UInt64.ofNat_add _ _
    exact congrArg (fun n => { r.cells with incarnation := n }) hbumps
  | release | ping | crosshair | scoreboardFlair => rfl

theorem recordOf_append {calls : List (Int × SlotCall)} {t : Int} :
    recordOf s (calls ++ [(t, c)]) = if t = s then (recordOf s calls).after c else recordOf s calls := by
  by_cases h : t = s
  · simp [recordOf, h]
  · simp [recordOf, h]

/-- The table after a run is its slots' records, each on its own. -/
theorem slot_foldl_call (calls : List (Int × SlotCall)) (hm : shm.mapped = true) (hs : 0 ≤ s)
    (hs' : s < kShmMaxSlots) (hinit : shm.slot s = (recordOf s []).cells) :
    (calls.foldl (fun shm c => shm.call c.1 c.2) shm).mapped = true ∧
      (calls.foldl (fun shm c => shm.call c.1 c.2) shm).slot s = (recordOf s calls).cells := by
  induction calls using List.reverseRecOn with
  | nil => exact ⟨hm, hinit⟩
  | append_singleton calls last ih =>
    obtain ⟨t, c⟩ := last
    obtain ⟨hmapped, hslot⟩ := ih
    rw [List.foldl_append, List.foldl_cons, List.foldl_nil, recordOf_append]
    refine ⟨Shm.mapped_publish.trans hmapped, ?_⟩
    by_cases ht : t = s
    · subst ht
      rw [if_pos rfl, Shm.call, Shm.slot_publish hmapped hs hs', hslot, SlotRecord.cells_after]
    · rw [if_neg ht, Shm.call, Shm.slot_publish_of_ne (Ne.symm ht), hslot]

theorem refines_foldl_call (calls : List (Int × SlotCall)) (h : view.Refines shm) :
    (calls.foldl (fun view c => view.call c.1 c.2) view).Refines
      (calls.foldl (fun shm c => shm.call c.1 c.2) shm) := by
  induction calls generalizing view shm with
  | nil => exact h
  | cons call calls ih => exact ih (refines_call h)

/-- Whatever was called on a mapped region, there are bytes for it. -/
theorem exists_refines_foldl_call (calls : List (Int × SlotCall)) :
    ∃ m, ShmView.Refines (some m) (calls.foldl (fun shm c => shm.call c.1 c.2) (Shm.init true)) := by
  have hview := refines_foldl_call calls (refines_initSharedMemory (some fun _ => 0))
  have hmapped : (calls.foldl (fun shm c => shm.call c.1 c.2) (Shm.init true)).mapped = true :=
    (@slot_foldl_call _ 0 calls rfl (by decide) (by decide) rfl).1
  generalize calls.foldl (fun view c => view.call c.1 c.2)
    (initSharedMemory none (some fun _ => 0)).2 = view at hview
  cases view with
  | none =>
    have hunmapped : (calls.foldl (fun shm c => shm.call c.1 c.2) (Shm.init true)).mapped = false := hview
    rw [hmapped] at hunmapped
    cases hunmapped
  | some m => exact ⟨m, hview⟩

namespace SharedMemoryClient

variable {connected : Bool}

theorem viewRead_of_le {α : Type} {off size : Nat} {value : α} (h : off + size ≤ totalSize) :
    viewRead off size value = some value := if_pos h

/-- A cell of a slot is inside the view. -/
theorem viewRead_cell {α : Type} {value : α} (k : Cell) (hs : 0 ≤ s) (hs' : s < kShmMaxSlots) :
    viewRead (k.ptr s) k.size value = some value := viewRead_of_le (Cell.ptr_bounds hs hs').2

theorem tryConnect_of_region (h : RegionOf shm m) : tryConnect connected m = true := by
  have hmagic : readUInt32 m offMagic = some magic := by
    rw [readUInt32, offMagic, h.magic, viewRead_of_le (by decide)]
    rfl
  have hversion : readUInt32 m offVersion = some version := by
    rw [readUInt32, offVersion, h.version, viewRead_of_le (by decide)]
    rfl
  have hmaxSlots : readUInt32 m offMaxSlots = some (UInt32.ofNat maxSlots.toNat) := by
    rw [readUInt32, offMaxSlots, h.maxSlots, viewRead_of_le (by decide)]
    rfl
  simp [tryConnect, hmagic, hversion, hmaxSlots]

theorem valid_of_region (h : RegionOf shm m) (hs : 0 ≤ s) (hs' : s < kShmMaxSlots) :
    valid connected m s = true := by
  have hrange : s < maxSlots := hs'
  simp [valid, tryConnect_of_region h, hs, hrange]

theorem isManagedBot_of_region (h : RegionOf shm m) (hs : 0 ≤ s) (hs' : s < kShmMaxSlots) :
    isManagedBot connected m s = some (decide ((shm.slot s).slotState ≠ 0)) := by
  have hread : readByte m (offSlotState + s.toNat) = some (shm.slot s).slotState := by
    rw [← h.cells s hs hs']
    exact viewRead_cell .slotState hs hs'
  rw [isManagedBot, if_pos (valid_of_region h hs hs'), hread]
  rfl

theorem getBotSteamId_of_region (h : RegionOf shm m) (hs : 0 ≤ s) (hs' : s < kShmMaxSlots) :
    getBotSteamId connected m s = some (shm.slot s).syntheticSid := by
  rw [getBotSteamId, if_pos (valid_of_region h hs hs'), ← h.cells s hs hs']
  exact viewRead_cell .syntheticSid hs hs'

theorem getSlotIncarnation_of_region (h : RegionOf shm m) (hs : 0 ≤ s) (hs' : s < kShmMaxSlots) :
    getSlotIncarnation connected m s = some (shm.slot s).incarnation := by
  rw [getSlotIncarnation, if_pos (valid_of_region h hs hs'), ← h.cells s hs hs']
  exact viewRead_cell .incarnation hs hs'

theorem getPersonaName_of_region (h : RegionOf shm m) (hs : 0 ≤ s) (hs' : s < kShmMaxSlots) :
    getPersonaName connected m s = some (cstr (shm.slot s).personaName) := by
  have hread : readArray m (offPersonaName + s.toNat * nameLen) nameLen =
      some (shm.slot s).personaName := by
    rw [← h.cells s hs hs']
    exact viewRead_cell .personaName hs hs'
  rw [getPersonaName, valid_of_region h hs hs', hread, cstr, List.takeWhile_eq_take_findIdx_not]
  simp

/-- The loop lists the slots whose state byte is set, in the order it visits them. -/
theorem managedFrom_of_region (h : RegionOf shm m) {slots : List Nat} {list : List Int}
    (hslots : ∀ s ∈ slots, s < 64) : managedFrom m slots list =
      some (list ++ (slots.map Int.ofNat).filter fun s => (shm.slot s).slotState ≠ 0) := by
  induction slots generalizing list with
  | nil => simp [managedFrom]
  | cons s slots ih =>
    have hs' : (s : Int) < kShmMaxSlots := by
      have := hslots s List.mem_cons_self
      rw [kShmMaxSlots]
      omega
    have hread : readByte m (offSlotState + s) = some (shm.slot s).slotState := by
      rw [← h.cells s (by omega) hs']
      exact viewRead_cell .slotState (by omega) hs'
    rw [managedFrom, hread, Option.bind_some, ih fun s hs => hslots s (List.mem_cons_of_mem _ hs),
      List.map_cons, List.filter_cons]
    by_cases hstate : (shm.slot s).slotState = 0
    · simp [hstate]
    · simp [hstate]

theorem getManagedSlots_of_region (h : RegionOf shm m) : getManagedSlots connected m =
    some (((List.range 64).map Int.ofNat).filter fun s => (shm.slot s).slotState ≠ 0) := by
  rw [getManagedSlots, if_pos (tryConnect_of_region h)]
  exact managedFrom_of_region h fun s hs => List.mem_range.mp hs

end SharedMemoryClient

open SharedMemoryClient in
/-- Writer and reader agree on the layout: after any calls, the bytes of the region show the reader
every slot's own record. -/
theorem region_shows_records (mapping : Mem) (connected : Bool) (calls : List (Int × SlotCall)) :
    ∃ m, calls.foldl (fun view c => view.call c.1 c.2) (initSharedMemory none (some mapping)).2 =
        some m ∧
      tryConnect connected m = true ∧
      (∀ s, 0 ≤ s → s < 64 →
        isManagedBot connected m s = some (recordOf s calls).managed ∧
        getBotSteamId connected m s = some (recordOf s calls).steamId ∧
        getPersonaName connected m s = some ((cstr (recordOf s calls).name).take 31) ∧
        getSlotIncarnation connected m s = some (UInt64.ofNat (recordOf s calls).bumps) ∧
        (cellsAt m s).currentPing = (recordOf s calls).ping.toInt ∧
        (cellsAt m s).crosshair = charCell 64 (recordOf s calls).crosshair ∧
        (cellsAt m s).scoreboardFlair = (recordOf s calls).scoreboardFlair) ∧
      getManagedSlots connected m =
        some (((List.range 64).map Int.ofNat).filter fun s => (recordOf s calls).managed) ∧
      ∀ s c, s < 0 ∨ 64 ≤ s → ShmView.call (some m) s c = some m := by
  have hrefines := refines_foldl_call calls (refines_initSharedMemory (some mapping))
  have htable : ∀ s, 0 ≤ s → s < kShmMaxSlots →
      (calls.foldl (fun shm c => shm.call c.1 c.2) (Shm.init true)).slot s =
        (recordOf s calls).cells :=
    fun s hs hs' => (slot_foldl_call calls rfl hs hs' rfl).2
  have hmapped : (calls.foldl (fun shm c => shm.call c.1 c.2) (Shm.init true)).mapped = true :=
    (@slot_foldl_call _ 0 calls rfl (by decide) (by decide) rfl).1
  rw [show (initSharedMemory none (some mapping)).1 = true from rfl] at hrefines
  generalize calls.foldl (fun shm c => shm.call c.1 c.2) (Shm.init true) = shm at *
  generalize calls.foldl (fun view c => view.call c.1 c.2) (initSharedMemory none (some mapping)).2 =
    view at hrefines
  obtain ⟨m, rfl⟩ : ∃ m, view = some m := by
    cases view with
    | none => exact absurd (hmapped.symm.trans hrefines) (by simp)
    | some m => exact ⟨m, rfl⟩
  have hregion : RegionOf shm m := hrefines.2
  have hstate : ∀ s, 0 ≤ s → s < kShmMaxSlots →
      decide ((shm.slot s).slotState ≠ 0) = (recordOf s calls).managed := by
    intro s hs hs'
    rw [htable s hs hs']
    exact Bool.eq_iff_iff.mpr (decide_eq_true_iff.trans SlotRecord.slotState_ne_zero)
  refine ⟨m, rfl, tryConnect_of_region hregion, fun s hs hs' => ?_, ?_, fun s c h => call_out_of_range h⟩
  · rw [isManagedBot_of_region hregion hs hs', hstate s hs hs', getBotSteamId_of_region hregion hs hs',
      getPersonaName_of_region hregion hs hs', getSlotIncarnation_of_region hregion hs hs',
      hregion.cells s hs hs', htable s hs hs']
    refine ⟨rfl, rfl, ?_, rfl, rfl, rfl, rfl⟩
    exact congrArg some (cstr_charCell (by decide))
  · rw [getManagedSlots_of_region hregion]
    refine congrArg some (List.filter_congr fun s hs => ?_)
    obtain ⟨n, hn, rfl⟩ := List.mem_map.mp hs
    have hn' := List.mem_range.mp hn
    exact hstate n (by omega) (by rw [kShmMaxSlots]; omega)

end Botid
