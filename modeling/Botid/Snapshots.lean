import Botid.SharedMemoryClient

/-! `GetManagedBotSnapshots`, which the writer may run beside: exact on every slot left alone meanwhile. -/
namespace Botid

open ByteMem

inductive BotIdentityMode
  | player
  | bot

structure ManagedBotSnapshot where
  slot : Int
  incarnation : UInt64
  connected : Bool
  identityMode : BotIdentityMode
  steamId : UInt64
  personaName : Bytes

namespace SharedMemoryClient

/-- The region as each read of a call finds it, first read to last. -/
abbrev History := Nat → Mem

/-- `TryConnect`, whose reads are the first three. -/
def tryConnectAt (connected : Bool) (hist : History) : Bool :=
  connected || (readUInt32 (hist 0) offMagic = some magic &&
    readUInt32 (hist 1) offVersion = some version &&
    readUInt32 (hist 2) offMaxSlots = some (UInt32.ofNat maxSlots.toNat))

/-- The loop of `GetManagedSlots`: slot `s` is read fourth from slot 0 on. -/
def managedFromAt (hist : History) : List Nat → List Int → Option (List Int)
  | [], list => some list
  | s :: slots, list =>
    (readByte (hist (3 + s)) (offSlotState + s)).bind fun b =>
      managedFromAt hist slots (if b = 0 then list else list ++ [(s : Int)])

/-- `ReadArray`, byte by byte. -/
def readArrayAt (hist : History) (first off count : Nat) : Option Bytes :=
  viewRead off count ((List.range count).map fun j => hist (first + j) (off + j))

/-- The body of the loop over the managed slots: two words and the 32 bytes of the name. -/
def snapshotAt (hist : History) (first : Nat) (s : Int) : Option ManagedBotSnapshot := do
  let incarnation ← readUInt64 (hist first) (offIncarnation + s.toNat * 8)
  let steamId ← readUInt64 (hist (first + 1)) (offSyntheticSid + s.toNat * 8)
  let buf ← readArrayAt hist (first + 2) (offPersonaName + s.toNat * nameLen) nameLen
  some
    { slot := s
      incarnation
      connected := true
      identityMode := .player
      steamId
      personaName := buf.take (buf.findIdx (· = 0)) }

def snapshotsFrom (hist : History) : Nat → List Int → Option (List ManagedBotSnapshot)
  | _, [] => some []
  | first, s :: slots => do
    let snapshot ← snapshotAt hist first s
    let rest ← snapshotsFrom hist (first + 2 + nameLen) slots
    some (snapshot :: rest)

def getManagedBotSnapshots (connected : Bool) (hist : History) : Option (List ManagedBotSnapshot) :=
  if tryConnectAt connected hist then
    (managedFromAt hist (List.range maxSlots.toNat) []).bind
      (snapshotsFrom hist (3 + maxSlots.toNat))
  else some []

end SharedMemoryClient

open SharedMemoryClient

/-- What a snapshot says of a slot with these cells. -/
def snapshotOf (s : Int) (c : ShmSlot) : ManagedBotSnapshot where
  slot := s
  incarnation := c.incarnation
  connected := true
  identityMode := .player
  steamId := c.syntheticSid
  personaName := cstr c.personaName

variable {connected : Bool} {hist : History} {shms : Nat → Shm} {first n : Nat} {s : Int} {c : ShmSlot}
  {slots : List Nat} {list managed : List Int} {m : Mem}

theorem tryConnectAt_of_region (h : ∀ k, RegionOf (shms k) (hist k)) :
    tryConnectAt connected hist = true := by
  have hread : ∀ k, tryConnect false (hist k) = true := fun k => tryConnect_of_region (h k)
  simp only [tryConnect, Bool.false_or, Bool.and_eq_true, decide_eq_true_eq] at hread
  simp [tryConnectAt, (hread 0).1.1, (hread 1).1.2, (hread 2).2]

/-- The loop lists the slots that it finds set, each at its own read. -/
theorem managedFromAt_of_region (h : ∀ k, RegionOf (shms k) (hist k)) (hslots : ∀ s ∈ slots, s < 64) :
    managedFromAt hist slots list = some (list ++ (slots.map Int.ofNat).filter fun s =>
      ((shms (3 + s.toNat)).slot s).slotState ≠ 0) := by
  induction slots generalizing list with
  | nil => simp [managedFromAt]
  | cons s slots ih =>
    have hs' : (s : Int) < kShmMaxSlots := by
      have := hslots s List.mem_cons_self
      rw [kShmMaxSlots]
      omega
    have hread : readByte (hist (3 + s)) (offSlotState + s) =
        some ((shms (3 + s)).slot s).slotState := by
      rw [← (h (3 + s)).cells s (by omega) hs']
      exact viewRead_cell .slotState (by omega) hs'
    rw [managedFromAt, hread, Option.bind_some, ih fun s hs => hslots s (List.mem_cons_of_mem _ hs),
      List.map_cons, List.filter_cons]
    by_cases hstate : ((shms (3 + s)).slot s).slotState = 0
    · simp [hstate]
    · simp [hstate]

/-- The bytes of a name, each read at its own moment. -/
def nameSeen (hist : History) (first : Nat) (s : Int) : Bytes :=
  (List.range kShmNameLen).map fun j => hist (first + j) (namePtr s + j)

theorem snapshotAt_of_region (h : ∀ k, RegionOf (shms k) (hist k)) (hs : 0 ≤ s) (hs' : s < kShmMaxSlots) :
    snapshotAt hist first s = some
      { slot := s
        incarnation := ((shms first).slot s).incarnation
        connected := true
        identityMode := .player
        steamId := ((shms (first + 1)).slot s).syntheticSid
        personaName := cstr (nameSeen hist (first + 2) s) } := by
  have hincarnation : SharedMemoryClient.readUInt64 (hist first) (offIncarnation + s.toNat * 8) =
      some ((shms first).slot s).incarnation := by
    rw [← (h first).cells s hs hs']
    exact viewRead_cell .incarnation hs hs'
  have hsid : SharedMemoryClient.readUInt64 (hist (first + 1)) (offSyntheticSid + s.toNat * 8) =
      some ((shms (first + 1)).slot s).syntheticSid := by
    rw [← (h (first + 1)).cells s hs hs']
    exact viewRead_cell .syntheticSid hs hs'
  have hname : readArrayAt hist (first + 2) (offPersonaName + s.toNat * nameLen) nameLen =
      some (nameSeen hist (first + 2) s) := viewRead_cell .personaName hs hs'
  rw [snapshotAt, hincarnation, hsid, hname, cstr, List.takeWhile_eq_take_findIdx_not]
  simp

/-- A name whose cell does not change is read as it stands. -/
theorem nameSeen_eq (h : ∀ k, RegionOf (shms k) (hist k)) (hs : 0 ≤ s) (hs' : s < kShmMaxSlots)
    (hquiet : ∀ k, ((shms k).slot s).personaName = c.personaName) :
    nameSeen hist first s = c.personaName := by
  have hcell : ∀ k, readBytes (hist k) (namePtr s) kShmNameLen = c.personaName := by
    intro k
    rw [← hquiet k, ← (h k).cells s hs hs']
    rfl
  have hlen : c.personaName.length = kShmNameLen := by rw [← hcell 0, length_readBytes]
  apply List.ext_getElem
  · rw [nameSeen, List.length_map, List.length_range, hlen]
  · intro j hj hj'
    have hbyte := ((readBytes_eq_iff hlen).mp (hcell (first + j))) j (by omega)
    rw [List.getD_eq_getElem?_getD, List.getElem?_eq_getElem hj'] at hbyte
    simpa [nameSeen] using hbyte

/-- The second loop takes one snapshot for each slot of the list, in its order. -/
theorem snapshotsFrom_of_region (h : ∀ k, RegionOf (shms k) (hist k))
    (hrange : ∀ s ∈ managed, 0 ≤ s ∧ s < kShmMaxSlots) :
    ∃ snapshots, snapshotsFrom hist first managed = some snapshots ∧
      snapshots.map ManagedBotSnapshot.slot = managed ∧
      ∀ snapshot ∈ snapshots, ∃ k, snapshotAt hist k snapshot.slot = some snapshot := by
  induction managed generalizing first with
  | nil => exact ⟨[], rfl, rfl, by simp⟩
  | cons s managed ih =>
    obtain ⟨hs, hs'⟩ := hrange s List.mem_cons_self
    obtain ⟨head, hhead, hslot⟩ : ∃ x, snapshotAt hist first s = some x ∧ x.slot = s :=
      ⟨_, snapshotAt_of_region h hs hs', rfl⟩
    obtain ⟨rest, hrest, hmap, hmem⟩ :=
      @ih (first + 2 + nameLen) fun s hs => hrange s (List.mem_cons_of_mem _ hs)
    refine ⟨head :: rest, ?_, ?_, ?_⟩
    · rw [snapshotsFrom, hhead, hrest]
      rfl
    · rw [List.map_cons, hslot, hmap]
    · intro snapshot hsnapshot
      rcases List.mem_cons.mp hsnapshot with rfl | hsnapshot
      · exact ⟨first, by rw [hslot, hhead]⟩
      · exact hmem snapshot hsnapshot

/-- Slots the reader found set, each when it looked at it. -/
def managedSeen (shms : Nat → Shm) : List Int :=
  ((List.range 64).map Int.ofNat).filter fun s => ((shms (3 + s.toNat)).slot s).slotState ≠ 0

theorem mem_managedSeen : s ∈ managedSeen shms ↔
    (0 ≤ s ∧ s < kShmMaxSlots) ∧ ((shms (3 + s.toNat)).slot s).slotState ≠ 0 := by
  rw [managedSeen, List.mem_filter, decide_eq_true_eq, kShmMaxSlots]
  refine and_congr_left fun _ => ?_
  constructor
  · intro hs
    obtain ⟨n, hn, rfl⟩ := List.mem_map.mp hs
    have hn' := List.mem_range.mp hn
    exact ⟨Int.natCast_nonneg n, by simpa using hn'⟩
  · rintro ⟨hs, hs'⟩
    exact List.mem_map.mpr ⟨s.toNat, List.mem_range.mpr (by omega), Int.toNat_of_nonneg hs⟩

/-- The whole call, on whatever regions it comes across. -/
theorem getManagedBotSnapshots_of_region (h : ∀ k, RegionOf (shms k) (hist k)) :
    ∃ snapshots, getManagedBotSnapshots connected hist = some snapshots ∧
      snapshots.map ManagedBotSnapshot.slot = managedSeen shms ∧
      ∀ snapshot ∈ snapshots, ∃ k, snapshotAt hist k snapshot.slot = some snapshot := by
  have hmanaged := @managedFromAt_of_region hist shms (List.range 64) [] h fun s hs => List.mem_range.mp hs
  rw [List.nil_append] at hmanaged
  obtain ⟨snapshots, hfrom, hmap, hmem⟩ :=
    @snapshotsFrom_of_region hist shms 67 (managedSeen shms) h fun s hs => (mem_managedSeen.mp hs).1
  refine ⟨snapshots, ?_, hmap, hmem⟩
  have hslots : managedFromAt hist (List.range maxSlots.toNat) [] = some (managedSeen shms) := hmanaged
  rw [getManagedBotSnapshots, if_pos (tryConnectAt_of_region h), hslots, Option.bind_some]
  exact hfrom

/-- A snapshot of a slot whose cells were left alone. -/
theorem snapshot_eq_of_region {snapshot : ManagedBotSnapshot} (h : ∀ k, RegionOf (shms k) (hist k))
    (hs : 0 ≤ snapshot.slot) (hs' : snapshot.slot < kShmMaxSlots)
    (hquiet : ∀ k, (shms k).slot snapshot.slot = c)
    (hsnapshot : snapshotAt hist n snapshot.slot = some snapshot) :
    snapshot = snapshotOf snapshot.slot c := by
  rw [snapshotAt_of_region h hs hs'] at hsnapshot
  have hname : nameSeen hist (n + 2) snapshot.slot = c.personaName :=
    nameSeen_eq h hs hs' fun k => by rw [hquiet]
  rw [hquiet, hquiet, hname] at hsnapshot
  exact (Option.some.inj hsnapshot).symm

/-- Whatever the writer does in between, the call goes through and lists slots in order, each managed
when it was looked at; a slot whose cells stay as they are is listed exactly when it is managed, and
shown as it is. -/
theorem snapshots_exact_where_quiet (connected : Bool) (hist : History) (shms : Nat → Shm)
    (h : ∀ k, RegionOf (shms k) (hist k)) :
    ∃ snapshots, getManagedBotSnapshots connected hist = some snapshots ∧
      snapshots.map ManagedBotSnapshot.slot = managedSeen shms ∧
      ∀ s c, 0 ≤ s → s < 64 → (∀ k, (shms k).slot s = c) →
        ((∃ snapshot ∈ snapshots, snapshot.slot = s) ↔ c.slotState ≠ 0) ∧
          ∀ snapshot ∈ snapshots, snapshot.slot = s → snapshot = snapshotOf s c := by
  obtain ⟨snapshots, hcall, hmap, hmem⟩ := @getManagedBotSnapshots_of_region connected _ _ h
  refine ⟨snapshots, hcall, hmap, fun s c hs hs' hquiet => ⟨?_, ?_⟩⟩
  · have hlisted : (∃ snapshot ∈ snapshots, snapshot.slot = s) ↔ s ∈ managedSeen shms := by
      rw [← hmap, List.mem_map]
    rw [hlisted, mem_managedSeen, hquiet]
    exact ⟨fun h => h.2, fun h => ⟨⟨hs, hs'⟩, h⟩⟩
  · rintro snapshot hsnapshot rfl
    obtain ⟨k, hk⟩ := hmem snapshot hsnapshot
    exact snapshot_eq_of_region h hs hs' hquiet hk

/-- The writer's calls before a reader's `k`-th read: slot 0 keeps its bot, slot 1 gets one just before its
state is read and loses it again between the reads of its SteamID and of its name. -/
def busyCalls (k : Nat) : List (Int × SlotCall) :=
  [(0, .adopt 76561197960265729 (some (ascii "INTEL"))), (0, .bumpIncarnation)] ++
    (if k < 4 then [] else
      [(1, .adopt 76561197960265730 (some (ascii "GURU"))), (1, .bumpIncarnation)]) ++
    if k < 103 then [] else [(1, .release)]

def busyTable (k : Nat) : Shm := (busyCalls k).foldl (fun shm c => shm.call c.1 c.2) (Shm.init true)

theorem slot_busyTable (hs : 0 ≤ s) (hs' : s < kShmMaxSlots) :
    (busyTable n).slot s = (recordOf s (busyCalls n)).cells :=
  (slot_foldl_call (busyCalls n) rfl hs hs' rfl).2

/-- Slot 0 is left alone by what goes on in slot 1. -/
theorem recordOf_busyCalls_zero : recordOf 0 (busyCalls n) = recordOf 0 (busyCalls 0) := by
  rw [busyCalls]
  split <;> split <;> rfl

theorem managedSeen_busyTable : managedSeen busyTable = [0, 1] := by
  have hseen : managedSeen busyTable = ((List.range 64).map Int.ofNat).filter fun s =>
      (recordOf s (busyCalls (3 + s.toNat))).managed := by
    refine List.filter_congr fun s hs => ?_
    obtain ⟨n, hn, rfl⟩ := List.mem_map.mp hs
    rw [slot_busyTable (s := Int.ofNat n) (Int.natCast_nonneg n) (Int.ofNat_lt.mpr (List.mem_range.mp hn))]
    exact Bool.eq_iff_iff.mpr (decide_eq_true_iff.trans SlotRecord.slotState_ne_zero)
  rw [hseen]
  decide +kernel

theorem snapshots_exact_where_quiet_of_busy :
    ∃ hist, (∀ k, RegionOf (busyTable k) (hist k)) ∧
      ∃ snapshots, getManagedBotSnapshots false hist = some snapshots ∧
        snapshots.map ManagedBotSnapshot.slot = [0, 1] ∧
        ∀ snapshot ∈ snapshots, snapshot.slot = 0 → snapshot.incarnation = 1 ∧
          snapshot.steamId = 76561197960265729 ∧ snapshot.personaName = ascii "INTEL" := by
  choose hist hhist using fun k => exists_refines_foldl_call (busyCalls k)
  have hregion : ∀ k, RegionOf (busyTable k) (hist k) := fun k => (hhist k).2
  obtain ⟨snapshots, hcall, hmap, hquiet⟩ := snapshots_exact_where_quiet false hist busyTable hregion
  refine ⟨hist, hregion, snapshots, hcall, hmap.trans managedSeen_busyTable, ?_⟩
  intro snapshot hsnapshot hslot
  have hcells : ∀ k, (busyTable k).slot 0 = (recordOf 0 (busyCalls 0)).cells := by
    intro k
    rw [slot_busyTable (by decide) (by decide), recordOf_busyCalls_zero]
  rw [(hquiet 0 _ (by decide) (by decide) hcells).2 snapshot hsnapshot hslot]
  exact ⟨rfl, rfl, by decide⟩

end Botid
