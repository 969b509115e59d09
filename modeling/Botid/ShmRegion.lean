import Botid.ByteMem
import Botid.Incarnations

/-! The shared region byte by byte, as `shm_pub` writes it, and the cells it holds. -/
namespace Botid

open ByteMem Machine

def kShmMagic : UInt32 := 0x44494842
def kShmVersion : UInt32 := 1
def kShmTotalSize : Nat := 1064960

def kOff_SlotState : Nat := 16
def kOff_SyntheticSid : Nat := 80
def kOff_PersonaName : Nat := 592
def kOff_CurrentPing : Nat := 5720
def kOff_Crosshair : Nat := 5976
def kOff_ScoreboardFlair : Nat := 10400
def kOff_Incarnation : Nat := 13216

def slotStatePtr (slot : Int) : Nat := kOff_SlotState + slot.toNat
def sidPtr (slot : Int) : Nat := kOff_SyntheticSid + slot.toNat * 8
def namePtr (slot : Int) : Nat := kOff_PersonaName + slot.toNat * kShmNameLen
def pingPtr (slot : Int) : Nat := kOff_CurrentPing + slot.toNat * 4
def crosshairPtr (slot : Int) : Nat := kOff_Crosshair + slot.toNat * kCrosshairLen
def flairPtr (slot : Int) : Nat := kOff_ScoreboardFlair + slot.toNat * 4
def incarnationPtr (slot : Int) : Nat := kOff_Incarnation + slot.toNat * 8

def memset (m : Mem) (off n : Nat) : Mem := writeBytes m off (List.replicate n 0)

/-- `strncpy`: the C string cut at `n` bytes, and NULs up to `n`. -/
def strncpy (m : Mem) (off : Nat) (src : Bytes) (n : Nat) : Mem :=
  let copied := (cstr src).take n
  writeBytes m off (copied ++ List.replicate (n - copied.length) 0)

/-- `s_ShmView`: the bytes behind it, `none` while it is null. -/
abbrev ShmView := Option Mem

/-- `InitSharedMemory`, on the fresh mapping that the system hands out, `none` where it fails. -/
def initSharedMemory (view : ShmView) (mapping : Option Mem) : Bool × ShmView :=
  match view, mapping with
  | some m, _ => (true, some m)
  | none, none => (false, none)
  | none, some m =>
    let m := memset m 0 kShmTotalSize
    let m := writeLE m 0 4 kShmMagic.toNat
    let m := writeLE m 4 4 kShmVersion.toNat
    (true, some (writeLE m 8 4 kShmMaxSlots.toNat))

namespace ShmView

/-- The guard every publisher starts with. -/
def publish (view : ShmView) (slot : Int) (write : Mem → Mem) : ShmView :=
  if slot < 0 ∨ kShmMaxSlots ≤ slot then view else view.map write

/-- A null name leaves the name cell alone. -/
def publishAdopt (view : ShmView) (slot : Int) (steamId : UInt64) (name : Option Bytes) : ShmView :=
  view.publish slot fun m =>
    let m := writeLE m (slotStatePtr slot) 1 1
    let m := writeLE m (sidPtr slot) 8 steamId.toNat
    match name with
    | none => m
    | some name => strncpy (memset m (namePtr slot) kShmNameLen) (namePtr slot) name (kShmNameLen - 1)

def publishRelease (view : ShmView) (slot : Int) : ShmView :=
  view.publish slot fun m =>
    let m := writeLE m (slotStatePtr slot) 1 0
    let m := writeLE m (sidPtr slot) 8 0
    memset m (namePtr slot) kShmNameLen

def publishPing (view : ShmView) (slot : Int) (ping : Int32) : ShmView :=
  view.publish slot fun m => writeLE m (pingPtr slot) 4 ping.toUInt32.toNat

/-- A null code is the empty one. -/
def publishCrosshair (view : ShmView) (slot : Int) (code : Option Bytes) : ShmView :=
  view.publish slot fun m =>
    strncpy (memset m (crosshairPtr slot) kCrosshairLen) (crosshairPtr slot) (code.getD [])
      (kCrosshairLen - 1)

def publishScoreboardFlair (view : ShmView) (slot : Int) (itemDefIndex : UInt32) : ShmView :=
  view.publish slot fun m => writeLE m (flairPtr slot) 4 itemDefIndex.toNat

def bumpIncarnation (view : ShmView) (slot : Int) : ShmView :=
  view.publish slot fun m =>
    writeLE m (incarnationPtr slot) 8 (UInt64.ofNat (readLE m (incarnationPtr slot) 8) + 1).toNat

end ShmView

/-- The cells a slot owns. -/
inductive Cell
  | slotState
  | syntheticSid
  | personaName
  | currentPing
  | crosshair
  | scoreboardFlair
  | incarnation

namespace Cell

def ptr : Cell → Int → Nat
  | slotState => slotStatePtr
  | syntheticSid => sidPtr
  | personaName => namePtr
  | currentPing => pingPtr
  | crosshair => crosshairPtr
  | scoreboardFlair => flairPtr
  | incarnation => incarnationPtr

def size : Cell → Nat
  | slotState => 1
  | syntheticSid | incarnation => 8
  | personaName => kShmNameLen
  | currentPing | scoreboardFlair => 4
  | crosshair => kCrosshairLen

variable {k k' : Cell} {s t : Int} {m m' : Mem}

/-- All cells lie behind the header and inside the region. -/
theorem ptr_bounds (hs : 0 ≤ s) (hs' : s < kShmMaxSlots) :
    12 ≤ k.ptr s ∧ k.ptr s + k.size ≤ kShmTotalSize := by
  cases k <;>
    simp only [ptr, size, slotStatePtr, sidPtr, namePtr, pingPtr, crosshairPtr, flairPtr,
      incarnationPtr, kOff_SlotState, kOff_SyntheticSid, kOff_PersonaName, kOff_CurrentPing,
      kOff_Crosshair, kOff_ScoreboardFlair, kOff_Incarnation, kShmNameLen, kCrosshairLen,
      kShmTotalSize, kShmMaxSlots] at * <;>
    omega

/-- No two cells share a byte. -/
theorem disjoint (hs : 0 ≤ s) (hs' : s < kShmMaxSlots) (ht : 0 ≤ t) (ht' : t < kShmMaxSlots)
    (h : k = k' → s ≠ t) :
    k.ptr s + k.size ≤ k'.ptr t ∨ k'.ptr t + k'.size ≤ k.ptr s := by
  cases k <;> cases k' <;>
    simp only [ptr, size, slotStatePtr, sidPtr, namePtr, pingPtr, crosshairPtr, flairPtr,
      incarnationPtr, kOff_SlotState, kOff_SyntheticSid, kOff_PersonaName, kOff_CurrentPing,
      kOff_Crosshair, kOff_ScoreboardFlair, kOff_Incarnation, kShmNameLen, kCrosshairLen,
      kShmMaxSlots, forall_const, reduceCtorEq, false_implies] at * <;>
    omega

end Cell

/-- The cells of a slot, as their types read the bytes. -/
def cellsAt (m : Mem) (s : Int) : ShmSlot where
  slotState := m (slotStatePtr s)
  syntheticSid := UInt64.ofNat (readLE m (sidPtr s) 8)
  personaName := readBytes m (namePtr s) kShmNameLen
  currentPing := (UInt32.ofNat (readLE m (pingPtr s) 4)).toInt32.toInt
  crosshair := readBytes m (crosshairPtr s) kCrosshairLen
  scoreboardFlair := UInt32.ofNat (readLE m (flairPtr s) 4)
  incarnation := UInt64.ofNat (readLE m (incarnationPtr s) 8)

/-- The cells with one of them taken from elsewhere. -/
def ShmSlot.withCell (c : ShmSlot) (k : Cell) (d : ShmSlot) : ShmSlot :=
  match k with
  | .slotState => { c with slotState := d.slotState }
  | .syntheticSid => { c with syntheticSid := d.syntheticSid }
  | .personaName => { c with personaName := d.personaName }
  | .currentPing => { c with currentPing := d.currentPing }
  | .crosshair => { c with crosshair := d.crosshair }
  | .scoreboardFlair => { c with scoreboardFlair := d.scoreboardFlair }
  | .incarnation => { c with incarnation := d.incarnation }

section Stores

variable {m m' : Mem} {k k' : Cell} {s t : Int} {v : Nat} {b : Bytes}

/-- Every other cell keeps its bytes. -/
theorem Cell.byte_eq (hs : 0 ≤ s) (hs' : s < kShmMaxSlots) (ht : 0 ≤ t) (ht' : t < kShmMaxSlots)
    (h : SameOutside (k.ptr s) k.size m m') (hne : k = k' → s ≠ t) :
    ∀ j < k'.size, m' (k'.ptr t + j) = m (k'.ptr t + j) := by
  intro j hj
  have hdisjoint := Cell.disjoint hs hs' ht ht' hne
  exact h _ (by omega)

/-- A store to one cell shows in that cell of that slot only. -/
theorem cellsAt_of_sameOutside (hs : 0 ≤ s) (hs' : s < kShmMaxSlots) (ht : 0 ≤ t)
    (ht' : t < kShmMaxSlots) (h : SameOutside (k.ptr s) k.size m m') :
    cellsAt m' t = if t = s then (cellsAt m t).withCell k (cellsAt m' t) else cellsAt m t := by
  have hword : ∀ k' : Cell, (k = k' → s ≠ t) → readLE m' (k'.ptr t) k'.size = readLE m (k'.ptr t) k'.size :=
    fun k' hne => readLE_congr (Cell.byte_eq hs hs' ht ht' h hne)
  have hbytes : ∀ k' : Cell, (k = k' → s ≠ t) →
      readBytes m' (k'.ptr t) k'.size = readBytes m (k'.ptr t) k'.size :=
    fun k' hne => readBytes_congr (Cell.byte_eq hs hs' ht ht' h hne)
  have hstate : (k = .slotState → s ≠ t) → m' (slotStatePtr t) = m (slotStatePtr t) :=
    fun hne => Cell.byte_eq hs hs' ht ht' h hne 0 (by decide)
  have hsid := hword .syntheticSid
  have hname := hbytes .personaName
  have hping := hword .currentPing
  have hcrosshair := hbytes .crosshair
  have hflair := hword .scoreboardFlair
  have hincarnation := hword .incarnation
  simp only [Cell.ptr, Cell.size] at hsid hname hping hcrosshair hflair hincarnation
  by_cases hts : t = s
  · rw [if_pos hts]
    cases k <;> simp_all [ShmSlot.withCell, cellsAt]
  · have hne : s ≠ t := Ne.symm hts
    rw [if_neg hts]
    simp only [cellsAt, hstate fun _ => hne, hsid fun _ => hne, hname fun _ => hne,
      hping fun _ => hne, hcrosshair fun _ => hne, hflair fun _ => hne, hincarnation fun _ => hne]

/-- From one state of the region to another by these stores to one slot's cells, and by no others. -/
structure Stored (s : Int) (ops : List CellStore) (m m' : Mem) : Prop where
  cells : ∀ t, 0 ≤ t → t < kShmMaxSlots →
    cellsAt m' t = if t = s then run ShmSlot.store (cellsAt m t) ops else cellsAt m t
  outside : ∀ a, a < 12 ∨ kShmTotalSize ≤ a → m' a = m a

variable {m'' : Mem} {ops ops' : List CellStore} {op : CellStore}

theorem Stored.refl : Stored s [] m m := ⟨fun _ _ _ => (ite_self _).symm, fun _ _ => rfl⟩

theorem Stored.trans (h : Stored s ops m m') (h' : Stored s ops' m' m'') :
    Stored s (ops ++ ops') m m'' := by
  refine ⟨fun t ht ht' => ?_, fun a ha => (h'.outside a ha).trans (h.outside a ha)⟩
  rw [h'.cells t ht ht', h.cells t ht ht']
  split
  · rw [run_append]
  · rfl

/-- Bytes of one cell that read as the stored value. -/
theorem Stored.of_cell (k : Cell) (hs : 0 ≤ s) (hs' : s < kShmMaxSlots)
    (hsame : SameOutside (k.ptr s) k.size m m')
    (hvalue : (cellsAt m s).withCell k (cellsAt m' s) = run ShmSlot.store (cellsAt m s) ops) :
    Stored s ops m m' := by
  have hbounds := @Cell.ptr_bounds k s hs hs'
  refine ⟨fun t ht ht' => ?_, fun a ha => hsame a (by omega)⟩
  rw [cellsAt_of_sameOutside hs hs' ht ht' hsame]
  split
  · subst t
    exact hvalue
  · rfl

theorem stored_slotState (v : UInt8) (hs : 0 ≤ s) (hs' : s < kShmMaxSlots) :
    Stored s [.slotState v] m (writeLE m (slotStatePtr s) 1 v.toNat) := by
  apply Stored.of_cell .slotState hs hs' sameOutside_writeLE
  have hread : writeLE m (slotStatePtr s) 1 v.toNat (slotStatePtr s) = v := by
    rw [writeLE_in (le_refl _) (by omega)]
    simp
  exact congrArg (fun v => { cellsAt m s with slotState := v }) hread

theorem stored_syntheticSid (v : UInt64) (hs : 0 ≤ s) (hs' : s < kShmMaxSlots) :
    Stored s [.syntheticSid v] m (writeLE m (sidPtr s) 8 v.toNat) := by
  apply Stored.of_cell .syntheticSid hs hs' sameOutside_writeLE
  have hread : UInt64.ofNat (readLE (writeLE m (sidPtr s) 8 v.toNat) (sidPtr s) 8) = v := by
    rw [readLE_writeLE v.toNat_lt, UInt64.ofNat_toNat]
  exact congrArg (fun v => { cellsAt m s with syntheticSid := v }) hread

theorem stored_currentPing (v : Int32) (hs : 0 ≤ s) (hs' : s < kShmMaxSlots) :
    Stored s [.currentPing v.toInt] m (writeLE m (pingPtr s) 4 v.toUInt32.toNat) := by
  apply Stored.of_cell .currentPing hs hs' sameOutside_writeLE
  have hread : (UInt32.ofNat (readLE (writeLE m (pingPtr s) 4 v.toUInt32.toNat) (pingPtr s) 4)).toInt32 =
      v := by
    rw [readLE_writeLE v.toUInt32.toNat_lt, UInt32.ofNat_toNat, Int32.toInt32_toUInt32]
  exact congrArg (fun v : Int32 => { cellsAt m s with currentPing := v.toInt }) hread

theorem stored_scoreboardFlair (v : UInt32) (hs : 0 ≤ s) (hs' : s < kShmMaxSlots) :
    Stored s [.scoreboardFlair v] m (writeLE m (flairPtr s) 4 v.toNat) := by
  apply Stored.of_cell .scoreboardFlair hs hs' sameOutside_writeLE
  have hread : UInt32.ofNat (readLE (writeLE m (flairPtr s) 4 v.toNat) (flairPtr s) 4) = v := by
    rw [readLE_writeLE v.toNat_lt, UInt32.ofNat_toNat]
  exact congrArg (fun v => { cellsAt m s with scoreboardFlair := v }) hread

theorem stored_incarnation (hs : 0 ≤ s) (hs' : s < kShmMaxSlots) :
    Stored s [.incarnation] m (writeLE m (incarnationPtr s) 8
      (UInt64.ofNat (readLE m (incarnationPtr s) 8) + 1).toNat) := by
  apply Stored.of_cell .incarnation hs hs' sameOutside_writeLE
  have hread : ∀ v : UInt64,
      UInt64.ofNat (readLE (writeLE m (incarnationPtr s) 8 v.toNat) (incarnationPtr s) 8) = v := by
    intro v
    rw [readLE_writeLE v.toNat_lt, UInt64.ofNat_toNat]
  exact congrArg (fun v => { cellsAt m s with incarnation := v }) (hread _)

/-- `memset`, then `strncpy` one byte short of the cell: the cell of a C string. -/
theorem readBytes_strncpy {off n : Nat} :
    readBytes (strncpy (memset m off (n + 1)) off b n) off (n + 1) = charCell (n + 1) b := by
  rw [strncpy, memset, charCell, Nat.add_sub_cancel]
  generalize hcopied : (cstr b).take n = copied
  have hlen : copied.length ≤ n := by
    rw [← hcopied, List.length_take]
    exact Nat.min_le_left _ _
  have hread := @readBytes_overwrite m off (List.replicate n 0) [0]
    (copied ++ List.replicate (n - copied.length) 0) (by simp; omega)
  rw [← List.replicate_succ', List.length_replicate, List.length_singleton] at hread
  rw [hread, List.append_assoc, ← List.replicate_succ', Nat.succ_sub hlen]

theorem sameOutside_memset {off n : Nat} : SameOutside off n m (memset m off n) := by
  have := @sameOutside_writeBytes m off (List.replicate n 0)
  rwa [List.length_replicate] at this

theorem sameOutside_strncpy {off n : Nat} : SameOutside off n m (strncpy m off b n) := by
  intro a ha
  apply sameOutside_writeBytes
  have hlen : ((cstr b).take n).length ≤ n := by
    rw [List.length_take]
    exact Nat.min_le_left _ _
  rw [List.length_append, List.length_replicate]
  omega

theorem readBytes_memset {off n : Nat} : readBytes (memset m off n) off n = List.replicate n 0 := by
  have := @readBytes_writeBytes m off (List.replicate n 0)
  rwa [List.length_replicate] at this

theorem SameOutside.mono {off n n' : Nat} (h : SameOutside off n m m') (hn : n ≤ n') :
    SameOutside off n' m m' := fun a ha => h a (by omega)

theorem stored_memset_personaName (hs : 0 ≤ s) (hs' : s < kShmMaxSlots) :
    Stored s [.personaName emptyName] m (memset m (namePtr s) kShmNameLen) := by
  apply Stored.of_cell .personaName hs hs' sameOutside_memset
  exact congrArg (fun v => { cellsAt m s with personaName := v }) readBytes_memset

/-- The copy of a name over a cleared cell, seen together with the clearing. -/
theorem stored_personaName (name : Bytes) (hs : 0 ≤ s) (hs' : s < kShmMaxSlots) :
    Stored s [.personaName emptyName, .personaName (charCell kShmNameLen name)] m
      (strncpy (memset m (namePtr s) kShmNameLen) (namePtr s) name (kShmNameLen - 1)) := by
  apply Stored.of_cell .personaName hs hs'
  · exact sameOutside_memset.trans (SameOutside.mono sameOutside_strncpy (by decide))
  · exact congrArg (fun v => { cellsAt m s with personaName := v }) readBytes_strncpy

theorem stored_crosshair (code : Bytes) (hs : 0 ≤ s) (hs' : s < kShmMaxSlots) :
    Stored s (publishCrosshairStores code) m
      (strncpy (memset m (crosshairPtr s) kCrosshairLen) (crosshairPtr s) code (kCrosshairLen - 1)) := by
  apply Stored.of_cell .crosshair hs hs'
  · exact sameOutside_memset.trans (SameOutside.mono sameOutside_strncpy (by decide))
  · exact congrArg (fun v => { cellsAt m s with crosshair := v }) readBytes_strncpy

end Stores

/-- A call of a publisher, apart from the slot. -/
inductive SlotCall
  | adopt (steamId : UInt64) (name : Option Bytes)
  | release
  | ping (ping : Int32)
  | crosshair (code : Option Bytes)
  | scoreboardFlair (itemDefIndex : UInt32)
  | bumpIncarnation

def ShmView.call (view : ShmView) (slot : Int) : SlotCall → ShmView
  | .adopt steamId name => view.publishAdopt slot steamId name
  | .release => view.publishRelease slot
  | .ping ping => view.publishPing slot ping
  | .crosshair code => view.publishCrosshair slot code
  | .scoreboardFlair itemDefIndex => view.publishScoreboardFlair slot itemDefIndex
  | .bumpIncarnation => view.bumpIncarnation slot

def SlotCall.stores : SlotCall → List CellStore
  | .adopt steamId name => publishAdoptStores steamId name
  | .release => publishReleaseStores
  | .ping value => [.currentPing value.toInt]
  | .crosshair code => publishCrosshairStores (code.getD [])
  | .scoreboardFlair itemDefIndex => [.scoreboardFlair itemDefIndex]
  | .bumpIncarnation => [.incarnation]

section Calls

variable {view : ShmView} {m : Mem} {s t : Int} {call : SlotCall}

theorem call_out_of_range (h : s < 0 ∨ kShmMaxSlots ≤ s) : view.call s call = view := by
  cases call <;> exact if_pos h

/-- Every call is the stores it is made of, to its own slot's cells. -/
theorem stored_call (hs : 0 ≤ s) (hs' : s < kShmMaxSlots) :
    ∃ m', ShmView.call (some m) s call = some m' ∧ Stored s call.stores m m' := by
  have hrange : ¬ (s < 0 ∨ kShmMaxSlots ≤ s) := by omega
  cases call with
  | adopt steamId name =>
    refine ⟨_, if_neg hrange, ?_⟩
    have hadopt := (@stored_slotState m s 1 hs hs').trans (stored_syntheticSid steamId hs hs')
    cases name with
    | none => exact hadopt
    | some name => exact hadopt.trans (stored_personaName name hs hs')
  | release =>
    refine ⟨_, if_neg hrange, ?_⟩
    have hrelease := (@stored_slotState m s 0 hs hs').trans (stored_syntheticSid 0 hs hs')
    exact hrelease.trans (stored_memset_personaName hs hs')
  | ping ping => exact ⟨_, if_neg hrange, stored_currentPing ping hs hs'⟩
  | crosshair code => exact ⟨_, if_neg hrange, stored_crosshair _ hs hs'⟩
  | scoreboardFlair itemDefIndex => exact ⟨_, if_neg hrange, stored_scoreboardFlair itemDefIndex hs hs'⟩
  | bumpIncarnation => exact ⟨_, if_neg hrange, stored_incarnation hs hs'⟩

end Calls

end Botid
