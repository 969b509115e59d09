import Botid.SlotRegions
import Botid.Vote

/-! One slot under a window: its client, its controller and the table of copies between them. -/
namespace Botid

open ByteMem

structure SlotView where
  client : Mem
  controller : Mem
  copies : List SteamIdCopy := []

namespace SlotView

/-- `ApplyNativeVoteMarkers` on a slot whose snapshot holds a SteamID64. -/
def applyMarkers (sid : UInt64) (live : Bool) (x : SlotView) : SlotView :=
  let scanned := scanRegion sid false kSscScanBytes x.copies (setFakePlayer x.client)
  let client := writeSteamId scanned.2 0
  if live then
    let scanned := scanRegion sid true kControllerScanBytes scanned.1
      (setControllerFakeClientFlag x.controller)
    ⟨client, scanned.2, scanned.1⟩
  else ⟨client, x.controller, scanned.1⟩

/-- What the end of the window writes back. -/
def replay (sid : UInt64) (live : Bool) (x : SlotView) : SlotView where
  client := replayOn false kSscScanBytes x.copies (writeSteamId (clearFakePlayer x.client) sid)
  controller :=
    if live then
      replayOn true kControllerScanBytes x.copies (clearControllerFakeClientFlag x.controller)
    else x.controller
  copies := x.copies

section

variable (sid : UInt64) (hasController : Bool) (liveAt : Mem → Bool) (m d : Mem)

/-- The slot after the window was opened and after `n` hold ticks. -/
def held (n : Nat) : SlotView :=
  (fun x : SlotView => x.applyMarkers sid (liveAt x.client))^[n]
    (applyMarkers sid hasController ⟨m, d, []⟩)

/-- The slot after the window was closed again. -/
def closed (n : Nat) : SlotView :=
  (held sid hasController liveAt m d n).replay sid (liveAt (held sid hasController liveAt m d n).client)

/-- The copies that the opening of the window finds in the client and in the controller. -/
def clientHits : List Nat := clientMarkers.hits sid kSscScanBytes m
def controllerHits : List Nat := controllerMarkers.hits sid kControllerScanBytes d

/-- The controller's copies that the client's leave room for. -/
def controllerRoom : Nat := kMaxSteamIdCopies - (clientHits sid m).length

/-- What the window did to the slot can be undone: in the client, and in the controller, where either
the controller is still found or nothing but the flag just set was zeroed in it. -/
structure Undoable : Prop where
  client : clientMarkers.Recoverable sid kSscScanBytes m ((clientHits sid m).take kMaxSteamIdCopies)
    ((clientHits sid m).drop kMaxSteamIdCopies)
  live : hasController = true → liveAt (clientMarkers.hold sid kSscScanBytes m) = true →
    controllerMarkers.Recoverable sid kControllerScanBytes d
      ((controllerHits sid d).take (controllerRoom sid m))
      ((controllerHits sid d).drop (controllerRoom sid m))
  lost : hasController = true → liveAt (clientMarkers.hold sid kSscScanBytes m) = false →
    Covers (controllerHits sid d) offFakeClientByte ∧
      ∀ a, Covers (controllerHits sid d) a → d a = 0

end

variable {sid : UInt64} {hasController live : Bool} {liveAt : Mem → Bool} {m d : Mem} {x : SlotView}
  {n a h : Nat}

theorem client_set : clientMarkers.set m = setFakePlayer m := rfl

theorem client_fill {v : UInt64} : clientMarkers.fill v m = writeSteamId m v := rfl

theorem controller_set : controllerMarkers.set d = setControllerFakeClientFlag d := rfl

theorem controller_fill {v : UInt64} : controllerMarkers.fill v d = d := rfl

theorem scanRegion_blank {nbytes : Nat} {onController : Bool} {copies : List SteamIdCopy} :
    (scanRegion sid onController nbytes copies m).2 = blank (steamIdHits sid nbytes m) m :=
  funext fun _ => scanRegion_mem

theorem writeSteamId_scanRegion {copies : List SteamIdCopy} :
    writeSteamId (scanRegion sid false kSscScanBytes copies (setFakePlayer m)).2 0 =
      clientMarkers.hold sid kSscScanBytes m := by
  rw [Markers.hold, Markers.hits, client_fill, client_set, scanRegion_blank]

theorem controller_scanRegion {copies : List SteamIdCopy} :
    (scanRegion sid true kControllerScanBytes copies (setControllerFakeClientFlag d)).2 =
      controllerMarkers.hold sid kControllerScanBytes d := by
  rw [Markers.hold, Markers.hits, controller_fill, controller_set, scanRegion_blank]

theorem client_applyMarkers :
    (x.applyMarkers sid live).client = clientMarkers.hold sid kSscScanBytes x.client := by
  rw [applyMarkers, ← @writeSteamId_scanRegion sid x.client x.copies]
  split <;> rfl

theorem controller_applyMarkers : (x.applyMarkers sid live).controller =
    if live then controllerMarkers.hold sid kControllerScanBytes x.controller else x.controller := by
  rw [applyMarkers]
  cases live with
  | true => exact controller_scanRegion
  | false => rfl

/-- The table when the window is open. -/
def openedCopies (sid : UInt64) (hasController : Bool) (m d : Mem) : List SteamIdCopy :=
  ((clientHits sid m).take kMaxSteamIdCopies).map (entryAt sid false) ++
    if hasController then
      ((controllerHits sid d).take (controllerRoom sid m)).map (entryAt sid true)
    else []

theorem scan_client : (scanRegion sid false kSscScanBytes [] (setFakePlayer m)).1 =
    ((clientHits sid m).take kMaxSteamIdCopies).map (entryAt sid false) := by
  have hnone : ∀ x, copyOverlaps [] x false = false := fun _ => rfl
  rw [scanRegion_table, clientHits, Markers.hits, client_set]
  simp only [hnone, Bool.not_false, List.filter_true, List.nil_append, List.length_nil, Nat.sub_zero,
    List.map_take]

/-- The client's entries stand in no controller's way but for the room they take. -/
theorem scan_controller : (scanRegion sid true kControllerScanBytes
      (((clientHits sid m).take kMaxSteamIdCopies).map (entryAt sid false))
      (setControllerFakeClientFlag d)).1 =
    ((clientHits sid m).take kMaxSteamIdCopies).map (entryAt sid false) ++
      ((controllerHits sid d).take (controllerRoom sid m)).map (entryAt sid true) := by
  have hnone : ∀ x, copyOverlaps (((clientHits sid m).take kMaxSteamIdCopies).map (entryAt sid false)) x
      true = false := by
    intro x
    rw [Bool.eq_false_iff, ne_eq, copyOverlaps_eq_true]
    rintro ⟨copy, hc, hon, -⟩
    obtain ⟨h, -, rfl⟩ := List.mem_map.mp hc
    exact Bool.false_ne_true hon
  have hroom : kMaxSteamIdCopies -
      (((clientHits sid m).take kMaxSteamIdCopies).map (entryAt sid false)).length =
      controllerRoom sid m := by
    rw [List.length_map, List.length_take, controllerRoom]
    omega
  rw [scanRegion_table, hroom]
  simp only [hnone, Bool.not_false, List.filter_true]
  rw [controllerHits, Markers.hits, controller_set, ← List.map_take]

theorem copies_opened : (applyMarkers sid hasController ⟨m, d, []⟩).copies =
    openedCopies sid hasController m d := by
  rw [applyMarkers, openedCopies]
  cases hasController with
  | false =>
    rw [if_neg Bool.false_ne_true, if_neg Bool.false_ne_true, List.append_nil]
    exact scan_client
  | true =>
    rw [if_pos rfl, if_pos rfl, scan_client]
    exact scan_controller

theorem offsetsOf_openedCopies_client : offsetsOf false (openedCopies sid hasController m d) =
    (clientHits sid m).take kMaxSteamIdCopies := by
  rw [openedCopies, offsetsOf_append, offsetsOf_map_entryAt]
  cases hasController with
  | false => exact List.append_nil _
  | true => rw [if_pos rfl, offsetsOf_map_entryAt_of_ne (by decide), List.append_nil]

theorem offsetsOf_openedCopies_controller : offsetsOf true (openedCopies sid true m d) =
    (controllerHits sid d).take (controllerRoom sid m) := by
  rw [openedCopies, offsetsOf_append, if_pos rfl, offsetsOf_map_entryAt,
    offsetsOf_map_entryAt_of_ne (by decide), List.nil_append]

theorem mem_openedCopies {copy : SteamIdCopy} : copy ∈ openedCopies sid hasController m d ↔
    (∃ h ∈ (clientHits sid m).take kMaxSteamIdCopies, copy = entryAt sid false h) ∨
      hasController = true ∧
        ∃ h ∈ (controllerHits sid d).take (controllerRoom sid m), copy = entryAt sid true h := by
  rw [openedCopies, List.mem_append, List.mem_map]
  cases hasController with
  | false => simp [eq_comm]
  | true => simp only [if_true, List.mem_map, eq_comm, true_and]

/-- A memory that has the copies the table names is what the table agrees with. -/
theorem agrees_client {M : Mem}
    (hM : ∀ a, Covers ((clientHits sid m).take kMaxSteamIdCopies) a → M a = clientMarkers.set m a) :
    Agrees false kSscScanBytes M (openedCopies sid hasController m d) := by
  intro copy hc hon
  rcases mem_openedCopies.mp hc with ⟨h, hh, rfl⟩ | ⟨-, h, hh, rfl⟩
  · obtain ⟨hle, hword⟩ := steamIdHits_spec (List.mem_of_mem_take hh)
    refine ⟨hle, Eq.trans ?_ hword⟩
    exact readLE_congr fun k hk => hM _ ⟨h, hh, by simp [entryAt], by simpa [entryAt] using hk⟩
  · exact absurd hon (by simp [entryAt])

theorem agrees_controller {M : Mem} (hM : ∀ a,
      Covers ((controllerHits sid d).take (controllerRoom sid m)) a → M a = controllerMarkers.set d a) :
    Agrees true kControllerScanBytes M (openedCopies sid hasController m d) := by
  intro copy hc hon
  rcases mem_openedCopies.mp hc with ⟨h, hh, rfl⟩ | ⟨-, h, hh, rfl⟩
  · exact absurd hon (by simp [entryAt])
  · obtain ⟨hle, hword⟩ := steamIdHits_spec (List.mem_of_mem_take hh)
    refine ⟨hle, Eq.trans ?_ hword⟩
    exact readLE_congr fun k hk => hM _ ⟨h, hh, by simp [entryAt], by simpa [entryAt] using hk⟩

end SlotView

end Botid
