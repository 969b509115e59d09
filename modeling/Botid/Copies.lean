import Botid.State

/-! SteamID64 copies: the byte scan that zeroes them and the replay that puts them back. -/
namespace Botid

open ByteMem

def kMaxSteamIdCopies : Nat := 8
def kSscScanBytes : Nat := 2048
def kControllerScanBytes : Nat := 4096

def copyOverlaps (copies : List SteamIdCopy) (offset : Nat) (onController : Bool) : Bool :=
  copies.any fun copy =>
    copy.onController = onController ∧
      -8 < (copy.offset : Int) - offset ∧ (copy.offset : Int) - offset < 8

/-- The table entry a hit leaves, when it is new and there is room. -/
def recordCopy (copies : List SteamIdCopy) (offset : Nat) (value : UInt64) (onController : Bool) :
    List SteamIdCopy :=
  if !copyOverlaps copies offset onController ∧ copies.length < kMaxSteamIdCopies then
    copies ++ [⟨offset, value, onController⟩]
  else copies

/-- The loop of `scanRegion` from an offset; `fuel` bounds the offsets still to visit. -/
def scanFrom (target : UInt64) (onController : Bool) (nbytes : Nat) :
    Nat → Nat → List SteamIdCopy → Mem → List SteamIdCopy × Mem
  | 0, _, copies, m => (copies, m)
  | fuel + 1, off, copies, m =>
    if nbytes < off + 8 then (copies, m)
    else if readLE m off 8 ≠ target.toNat then
      scanFrom target onController nbytes fuel (off + 1) copies m
    else
      scanFrom target onController nbytes fuel (off + 8)
        (recordCopy copies off target onController) (writeLE m off 8 0)

/-- `scanRegion`: each step moves on by a byte at least, so `nbytes` of fuel visit every offset. -/
@[irreducible] def scanRegion (target : UInt64) (onController : Bool) (nbytes : Nat) (copies : List SteamIdCopy)
    (m : Mem) : List SteamIdCopy × Mem :=
  scanFrom target onController nbytes nbytes 0 copies m

def scanAndZeroSteamIdCopies (w : World) (snapshot : VoteSlotSnapshot) (client : Ptr)
    (controller : Option Ptr) : VoteSlotSnapshot × World :=
  if snapshot.sscSteamId = 0 then (snapshot, w)
  else
    let scanned := scanRegion snapshot.sscSteamId false kSscScanBytes snapshot.copies (w.client client)
    let w := w.onClient client fun _ => scanned.2
    match controller with
    | none => ({ snapshot with copies := scanned.1 }, w)
    | some c =>
      let scanned :=
        scanRegion snapshot.sscSteamId true kControllerScanBytes scanned.1 (w.controller c)
      ({ snapshot with copies := scanned.1 }, w.onController c fun _ => scanned.2)

/-- One pass of the loop in `RestoreSteamIdCopies`. -/
def restoreCopy (client : Ptr) (controller : Option Ptr) (w : World) (copy : SteamIdCopy) : World :=
  if copy.onController then
    if kControllerScanBytes < copy.offset + 8 then w
    else w.onLiveController controller fun m => writeLE m copy.offset 8 copy.value.toNat
  else if kSscScanBytes < copy.offset + 8 then w
  else w.onClient client fun m => writeLE m copy.offset 8 copy.value.toNat

def restoreSteamIdCopies (w : World) (snapshot : VoteSlotSnapshot) (client : Ptr)
    (controller : Option Ptr) : World :=
  snapshot.copies.foldl (restoreCopy client controller) w

/-- The offsets at which the scan finds the value, by the bytes before it writes any. -/
def hitsFrom (target : UInt64) (nbytes : Nat) : Nat → Nat → Mem → List Nat
  | 0, _, _ => []
  | fuel + 1, off, m =>
    if nbytes < off + 8 then []
    else if readLE m off 8 ≠ target.toNat then hitsFrom target nbytes fuel (off + 1) m
    else off :: hitsFrom target nbytes fuel (off + 8) m

/-- The hits of `scanRegion`. -/
def steamIdHits (target : UInt64) (nbytes : Nat) (m : Mem) : List Nat :=
  hitsFrom target nbytes nbytes 0 m

/-- One of the hits covers the byte. -/
def Covers (hits : List Nat) (a : Nat) : Prop := ∃ h ∈ hits, h ≤ a ∧ a < h + 8

instance {hits : List Nat} {a : Nat} : Decidable (Covers hits a) :=
  inferInstanceAs (Decidable (∃ h ∈ hits, h ≤ a ∧ a < h + 8))

variable {target : UInt64} {nbytes fuel off a h : Nat} {m m' : Mem} {copies : List SteamIdCopy}
  {onController : Bool}

theorem le_of_mem_hitsFrom (hh : h ∈ hitsFrom target nbytes fuel off m) : off ≤ h := by
  induction fuel generalizing off with
  | zero => simp [hitsFrom] at hh
  | succ fuel ih =>
    rw [hitsFrom] at hh
    split at hh
    · simp at hh
    · split at hh
      · exact Nat.le_of_succ_le (ih hh)
      · rcases List.mem_cons.mp hh with rfl | hh
        · exact le_rfl
        · have := ih hh
          omega

/-- The scan looks at no byte before its offset. -/
theorem hitsFrom_congr (hm : ∀ a, off ≤ a → m a = m' a) :
    hitsFrom target nbytes fuel off m = hitsFrom target nbytes fuel off m' := by
  induction fuel generalizing off with
  | zero => rfl
  | succ fuel ih =>
    have hword : readLE m off 8 = readLE m' off 8 :=
      readLE_congr fun k _ => hm _ (Nat.le_add_right off k)
    rw [hitsFrom, hitsFrom, hword, ih fun a ha => hm a (by omega), ih fun a ha => hm a (by omega)]

/-- The scan zeroes the bytes its hits cover, and no others. -/
theorem scanFrom_mem : (scanFrom target onController nbytes fuel off copies m).2 a =
    if Covers (hitsFrom target nbytes fuel off m) a then 0 else m a := by
  induction fuel generalizing off copies m with
  | zero => simp [scanFrom, hitsFrom, Covers]
  | succ fuel ih =>
    rw [scanFrom, hitsFrom]
    split
    · simp [Covers]
    · split
      · exact ih
      · have hlater : hitsFrom target nbytes fuel (off + 8) (writeLE m off 8 0) =
            hitsFrom target nbytes fuel (off + 8) m :=
          hitsFrom_congr fun a ha => writeLE_out (Or.inr ha)
        rw [ih, hlater]
        by_cases hc : Covers (hitsFrom target nbytes fuel (off + 8) m) a
        · obtain ⟨h, hh, ha⟩ := hc
          rw [if_pos ⟨h, hh, ha⟩, if_pos ⟨h, List.mem_cons_of_mem off hh, ha⟩]
        · rw [if_neg hc]
          by_cases ha : off ≤ a ∧ a < off + 8
          · rw [if_pos ⟨off, List.mem_cons_self, ha⟩, writeLE_in ha.1 ha.2]
            simp
          · rw [if_neg, writeLE_out (by omega)]
            rintro ⟨h, hh, hha⟩
            rcases List.mem_cons.mp hh with rfl | hh
            · exact ha hha
            · exact hc ⟨h, hh, hha⟩

theorem scanRegion_mem : (scanRegion target onController nbytes copies m).2 a =
    if Covers (steamIdHits target nbytes m) a then 0 else m a := by
  rw [scanRegion, steamIdHits]
  exact scanFrom_mem

end Botid
