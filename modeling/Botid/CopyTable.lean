import Botid.Copies
import Mathlib.Data.List.Pairwise

/-! What the table of a scan holds, and what a replay of it leaves in memory. -/
namespace Botid

open ByteMem World

variable {target : UInt64} {nbytes fuel off h x a : Nat} {m : Mem} {copies : List SteamIdCopy}
  {onController : Bool} {hits : List Nat}

theorem hitsFrom_spec (hh : h ∈ hitsFrom target nbytes fuel off m) :
    h + 8 ≤ nbytes ∧ readLE m h 8 = target.toNat := by
  induction fuel generalizing off with
  | zero => simp [hitsFrom] at hh
  | succ fuel ih =>
    rw [hitsFrom] at hh
    split at hh
    · simp at hh
    · split at hh
      · exact ih hh
      · rename_i hroom hword
        rcases List.mem_cons.mp hh with rfl | hh
        · exact ⟨by omega, not_not.mp hword⟩
        · exact ih hh

/-- No hit shares a byte with the next one. -/
theorem pairwise_hitsFrom : (hitsFrom target nbytes fuel off m).Pairwise fun h h' => h + 8 ≤ h' := by
  induction fuel generalizing off with
  | zero => exact .nil
  | succ fuel ih =>
    rw [hitsFrom]
    split
    · exact .nil
    · split
      · exact ih
      · exact .cons (fun h' hh' => le_of_mem_hitsFrom hh') ih

/-- A word that holds the value is a hit, or begins inside one. -/
theorem hitsFrom_complete (hoff : off ≤ x) (hx : x + 8 ≤ nbytes) (hfuel : nbytes ≤ off + fuel)
    (hword : readLE m x 8 = target.toNat) :
    ∃ h ∈ hitsFrom target nbytes fuel off m, h ≤ x ∧ x < h + 8 := by
  induction fuel generalizing off with
  | zero => omega
  | succ fuel ih =>
    rw [hitsFrom, if_neg (by omega)]
    split
    · rename_i hne
      have hlt : off ≠ x := by
        rintro rfl
        exact hne hword
      exact ih (by omega) (by omega)
    · by_cases hnear : x < off + 8
      · exact ⟨off, List.mem_cons_self, hoff, hnear⟩
      · obtain ⟨h, hh, hle⟩ := ih (by omega : off + 8 ≤ x) (by omega)
        exact ⟨h, List.mem_cons_of_mem off hh, hle⟩

theorem steamIdHits_spec (hh : h ∈ steamIdHits target nbytes m) :
    h + 8 ≤ nbytes ∧ readLE m h 8 = target.toNat :=
  hitsFrom_spec hh

theorem steamIdHits_complete (hx : x + 8 ≤ nbytes) (hword : readLE m x 8 = target.toNat) :
    ∃ h ∈ steamIdHits target nbytes m, h ≤ x ∧ x < h + 8 :=
  hitsFrom_complete (Nat.zero_le x) hx (by omega) hword

theorem byte_of_hit {k : Nat} (hk : k < 8) (hh : h ∈ steamIdHits target nbytes m) :
    m (h + k) = UInt8.ofNat (target.toNat / 256 ^ k) := by
  rw [@byte_eq_of_readLE m h 8 k hk, (steamIdHits_spec hh).2]

/-- The table entry for a hit. -/
def entryAt (target : UInt64) (onController : Bool) (h : Nat) : SteamIdCopy := ⟨h, target, onController⟩

theorem copyOverlaps_eq_true : copyOverlaps copies x onController = true ↔
    ∃ copy ∈ copies, copy.onController = onController ∧ copy.offset < x + 8 ∧ x < copy.offset + 8 := by
  simp only [copyOverlaps, List.any_eq_true, decide_eq_true_eq]
  constructor
  · rintro ⟨copy, hc, hon, hlo, hhi⟩
    exact ⟨copy, hc, hon, by omega, by omega⟩
  · rintro ⟨copy, hc, hon, hlo, hhi⟩
    exact ⟨copy, hc, hon, by omega, by omega⟩

/-- The entries a scan adds: its hits that overlap none there was before, as far as there is room. -/
theorem scanFrom_table : (scanFrom target onController nbytes fuel off copies m).1 =
    copies ++ (((hitsFrom target nbytes fuel off m).filter fun h =>
      !copyOverlaps copies h onController).map (entryAt target onController)).take
        (kMaxSteamIdCopies - copies.length) := by
  induction fuel generalizing off copies m with
  | zero => simp [scanFrom, hitsFrom]
  | succ fuel ih =>
    rw [scanFrom, hitsFrom]
    split
    · simp
    · split
      · exact ih
      · have hlater : hitsFrom target nbytes fuel (off + 8) (writeLE m off 8 0) =
            hitsFrom target nbytes fuel (off + 8) m :=
          hitsFrom_congr fun a ha => writeLE_out (Or.inr ha)
        rw [ih, hlater, recordCopy, List.filter_cons]
        cases hover : copyOverlaps copies off onController with
        | true => simp
        | false =>
          by_cases hroom : copies.length < kMaxSteamIdCopies
          · -- the new entry is too far from the later hits to overlap one of them
            have hfilter : (hitsFrom target nbytes fuel (off + 8) m).filter
                (fun h => !copyOverlaps (copies ++ [entryAt target onController off]) h onController) =
                (hitsFrom target nbytes fuel (off + 8) m).filter
                  fun h => !copyOverlaps copies h onController := by
              apply List.filter_congr
              intro h hh
              have hle := le_of_mem_hitsFrom hh
              have hnot : copyOverlaps [entryAt target onController off] h onController = false := by
                rw [Bool.eq_false_iff, ne_eq, copyOverlaps_eq_true]
                rintro ⟨copy, hc, -, -, hhi⟩
                rw [List.mem_singleton.mp hc, entryAt] at hhi
                dsimp only at hhi
                omega
              rw [copyOverlaps, List.any_append, ← copyOverlaps, ← copyOverlaps, hnot, Bool.or_false]
            have hentry : (⟨off, target, onController⟩ : SteamIdCopy) = entryAt target onController off := rfl
            have hmore : kMaxSteamIdCopies - copies.length =
                kMaxSteamIdCopies - (copies.length + 1) + 1 := by omega
            have hkept : (!false) = true := rfl
            rw [if_pos ⟨rfl, hroom⟩, hentry, hfilter, List.length_append, List.length_singleton,
              if_pos hkept, List.map_cons, hmore, List.take_succ_cons, List.append_assoc,
              List.singleton_append]
          · have hfull : kMaxSteamIdCopies - copies.length = 0 := by omega
            rw [if_neg (fun h => hroom h.2), hfull, List.take_zero, List.take_zero]

theorem scanRegion_table : (scanRegion target onController nbytes copies m).1 =
    copies ++ (((steamIdHits target nbytes m).filter fun h =>
      !copyOverlaps copies h onController).map (entryAt target onController)).take
        (kMaxSteamIdCopies - copies.length) := by
  rw [scanRegion, steamIdHits]
  exact scanFrom_table

/-- A scan adds nothing to a table that is full or holds something near every hit. -/
theorem scanRegion_table_of_overlaps (h : copies.length < kMaxSteamIdCopies →
      ∀ x ∈ steamIdHits target nbytes m, copyOverlaps copies x onController = true) :
    (scanRegion target onController nbytes copies m).1 = copies := by
  rw [scanRegion_table]
  by_cases hroom : copies.length < kMaxSteamIdCopies
  · have hfilter : (steamIdHits target nbytes m).filter
        (fun x => !copyOverlaps copies x onController) = [] := by
      rw [List.filter_eq_nil_iff]
      intro x hx
      rw [h hroom x hx]
      simp
    rw [hfilter, List.map_nil, List.take_nil, List.append_nil]
  · have hfull : kMaxSteamIdCopies - copies.length = 0 := by omega
    rw [hfull, List.take_zero, List.append_nil]

/-- The offsets a table holds of one region. -/
def offsetsOf (onController : Bool) (copies : List SteamIdCopy) : List Nat :=
  (copies.filter fun copy => copy.onController = onController).map SteamIdCopy.offset

theorem offsetsOf_append {copies' : List SteamIdCopy} : offsetsOf onController (copies ++ copies') =
    offsetsOf onController copies ++ offsetsOf onController copies' := by
  simp [offsetsOf]

@[simp] theorem offsetsOf_map_entryAt :
    offsetsOf onController (hits.map (entryAt target onController)) = hits := by
  induction hits with
  | nil => rfl
  | cons h hits ih =>
    rw [offsetsOf, List.map_cons, List.filter_cons_of_pos (by simp [entryAt]), List.map_cons]
    exact congrArg (h :: ·) ih

theorem offsetsOf_map_entryAt_of_ne {b : Bool} (hb : b ≠ onController) :
    offsetsOf onController (hits.map (entryAt target b)) = [] := by
  rw [offsetsOf, List.filter_eq_nil_iff.mpr, List.map_nil]
  simp [entryAt, hb]

/-- The entries of one region say what a memory holds there. -/
def Agrees (onController : Bool) (limit : Nat) (M : Mem) (copies : List SteamIdCopy) : Prop :=
  ∀ copy ∈ copies, copy.onController = onController →
    copy.offset + 8 ≤ limit ∧ readLE M copy.offset 8 = copy.value.toNat

theorem agrees_append {limit : Nat} {M : Mem} {copies' : List SteamIdCopy} :
    Agrees onController limit M (copies ++ copies') ↔
      Agrees onController limit M copies ∧ Agrees onController limit M copies' :=
  List.forall_mem_append

/-- Writing a word of another memory copies its bytes. -/
theorem writeLE_readLE {M : Mem} {n : Nat} :
    writeLE m off n (readLE M off n) a = if off ≤ a ∧ a < off + n then M a else m a := by
  by_cases ha : off ≤ a ∧ a < off + n
  · obtain ⟨k, rfl⟩ := Nat.exists_eq_add_of_le ha.1
    rw [writeLE_in ha.1 ha.2, if_pos ha, Nat.add_sub_cancel_left]
    exact (byte_eq_of_readLE (by omega)).symm
  · rw [writeLE_out (by omega), if_neg ha]

theorem covers_cons : Covers (h :: hits) a ↔ (h ≤ a ∧ a < h + 8) ∨ Covers hits a := by
  simp [Covers]

theorem covers_append {hits' : List Nat} : Covers (hits ++ hits') a ↔ Covers hits a ∨ Covers hits' a := by
  simp only [Covers, List.mem_append, or_and_right, exists_or]

/-- One memory laid over another where a word begins at one of the offsets. -/
def overlay (kept : List Nat) (M m : Mem) : Mem := fun a => if Covers kept a then M a else m a

/-- What `RestoreSteamIdCopies` does to one region. -/
def replayOn (onController : Bool) (limit : Nat) (copies : List SteamIdCopy) (m : Mem) : Mem :=
  copies.foldl
    (fun m copy =>
      if copy.onController = onController ∧ copy.offset + 8 ≤ limit then
        writeLE m copy.offset 8 copy.value.toNat
      else m) m

/-- A replay lays the memory over the region that the entries agree with. -/
theorem replayOn_eq {M : Mem} {limit : Nat} (hM : Agrees onController limit M copies) :
    replayOn onController limit copies m = overlay (offsetsOf onController copies) M m := by
  funext a
  rw [replayOn]
  induction copies generalizing m with
  | nil => simp [overlay, offsetsOf, Covers]
  | cons copy copies ih =>
    rw [List.foldl_cons, ih fun c hc => hM c (List.mem_cons_of_mem copy hc), overlay, overlay]
    by_cases hlater : Covers (offsetsOf onController copies) a
    · have hcovers : Covers (offsetsOf onController (copy :: copies)) a := by
        rw [← List.singleton_append, offsetsOf_append, covers_append]
        exact Or.inr hlater
      rw [if_pos hlater, if_pos hcovers]
    · rw [if_neg hlater]
      by_cases hon : copy.onController = onController
      · obtain ⟨hle, hword⟩ := hM copy List.mem_cons_self hon
        have hcovers : Covers (offsetsOf onController (copy :: copies)) a ↔
            copy.offset ≤ a ∧ a < copy.offset + 8 := by
          rw [offsetsOf, List.filter_cons_of_pos (by simpa using hon), List.map_cons, covers_cons]
          exact or_iff_left hlater
        rw [if_pos ⟨hon, hle⟩, ← hword, writeLE_readLE]
        simp only [hcovers]
      · have hoffsets : offsetsOf onController (copy :: copies) = offsetsOf onController copies := by
          rw [offsetsOf, List.filter_cons_of_neg (by simpa using hon), offsetsOf]
        rw [if_neg (fun h => hon h.1), hoffsets, if_neg hlater]

variable {w : World} {p c : Ptr} {controller : Option Ptr}

theorem client_foldl_restoreCopy : (copies.foldl (restoreCopy p controller) w).client p =
    replayOn false kSscScanBytes copies (w.client p) := by
  induction copies generalizing w with
  | nil => rfl
  | cons copy copies ih =>
    rw [List.foldl_cons, ih, replayOn, replayOn, List.foldl_cons]
    congr 1
    rw [restoreCopy]
    cases copy.onController with
    | true =>
      have hother : ¬ (true = false ∧ copy.offset + 8 ≤ kSscScanBytes) := by simp
      rw [if_pos rfl, if_neg hother]
      split
      · rfl
      · rw [client_onLiveController]
    | false =>
      rw [if_neg Bool.false_ne_true]
      by_cases hle : copy.offset + 8 ≤ kSscScanBytes
      · rw [if_neg (by omega), if_pos ⟨rfl, hle⟩, client_onClient_self]
      · rw [if_pos (by omega), if_neg (fun h => hle h.2)]

theorem controller_foldl_restoreCopy : (copies.foldl (restoreCopy p (some c)) w).controller c =
    replayOn true kControllerScanBytes copies (w.controller c) := by
  induction copies generalizing w with
  | nil => rfl
  | cons copy copies ih =>
    rw [List.foldl_cons, ih, replayOn, replayOn, List.foldl_cons]
    congr 1
    rw [restoreCopy]
    cases copy.onController with
    | true =>
      rw [if_pos rfl]
      by_cases hle : copy.offset + 8 ≤ kControllerScanBytes
      · rw [if_neg (by omega), if_pos ⟨rfl, hle⟩, onLiveController, controller_onController_self]
      · rw [if_pos (by omega), if_neg (fun h => hle h.2)]
    | false =>
      have hother : ¬ (false = true ∧ copy.offset + 8 ≤ kControllerScanBytes) := by simp
      rw [if_neg Bool.false_ne_true, if_neg hother]
      split <;> rfl

/-- Without a controller a replay leaves all of them alone. -/
theorem controller_foldl_restoreCopy_none :
    (copies.foldl (restoreCopy p none) w).controller = w.controller := by
  induction copies generalizing w with
  | nil => rfl
  | cons copy copies ih =>
    rw [List.foldl_cons, ih, restoreCopy]
    split
    · split <;> rfl
    · split <;> rfl

end Botid
