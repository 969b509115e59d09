import Botid.LiveIdentities
import Botid.Snapshots

/-! `IsManagedBotIncarnation`: a snapshot that still passes it later has been right all along. -/
namespace Botid

open ByteMem Machine

namespace SharedMemoryClient

/-- Both accessors, the second one only for a managed slot. -/
def isManagedBotIncarnation (connected : Bool) (m : Mem) (slot : Int) (incarnation : UInt64) :
    Option Bool := do
  let managed ← isManagedBot connected m slot
  if managed then (getSlotIncarnation connected m slot).map fun i => i = incarnation
  else some false

end SharedMemoryClient

open SharedMemoryClient

def Publication.isAdoption : Publication → Bool
  | .adoption _ _ => true
  | .release | .ping _ | .crosshair _ | .scoreboardFlair _ => false

/-- One slot's cells went on by publications, at most `n` of them adoptions. -/
def Publishes (n : Nat) (s : Int) (shm shm' : Shm) : Prop :=
  shm'.mapped = shm.mapped ∧ (shm.mapped = true → ∃ ops : List Publication,
    ops.countP Publication.isAdoption ≤ n ∧
      shm'.slot s = run ShmSlot.store (shm.slot s) (ops.flatMap Publication.stores))

variable {E : EngineCalls} {st : State} {ev : Event} {es : List Event} {shm shm' shm'' : Shm}
  {n k : Nat} {s t : Int} {i : Nat} {c : ShmSlot} {op : Publication} {ops : List Publication}
  {f : ShmSlot → ShmSlot} {connected : Bool} {m : Mem} {incarnation : UInt64}

theorem Publishes.refl : Publishes n s shm shm := ⟨rfl, fun _ => ⟨[], Nat.zero_le n, rfl⟩⟩

theorem Publishes.trans (h : Publishes n s shm shm') (h' : Publishes k s shm' shm'') :
    Publishes (n + k) s shm shm'' := by
  refine ⟨h'.1.trans h.1, fun hm => ?_⟩
  obtain ⟨ops, hn, hslot⟩ := h.2 hm
  obtain ⟨ops', hk, hslot'⟩ := h'.2 (h.1.trans hm)
  refine ⟨ops ++ ops', ?_, ?_⟩
  · rw [List.countP_append]
    omega
  · rw [hslot', hslot, List.flatMap_append, run_append]

theorem Publishes.mono (h : Publishes n s shm shm') (hn : n ≤ k) : Publishes k s shm shm' := by
  refine ⟨h.1, fun hm => ?_⟩
  obtain ⟨ops, hops, hslot⟩ := h.2 hm
  exact ⟨ops, hops.trans hn, hslot⟩

theorem publishes_of_ne (h : s ≠ t) : Publishes n s shm (shm.publish t f) :=
  ⟨Shm.mapped_publish, fun _ => ⟨[], Nat.zero_le n, Shm.slot_publish_of_ne h⟩⟩

/-- One call of a publisher that is no adoption, whichever slot it is for. -/
theorem publishes_of_stores (op : Publication) (hs : 0 ≤ s) (hs' : s < kShmMaxSlots)
    (hop : op.isAdoption = false) (hf : ∀ c, f c = run ShmSlot.store c op.stores) :
    Publishes 0 s shm (shm.publish t f) := by
  by_cases hst : s = t
  · subst hst
    refine ⟨Shm.mapped_publish, fun hm => ⟨[op], by simp [hop], ?_⟩⟩
    rw [Shm.slot_publish hm hs hs', hf]
    simp
  · exact publishes_of_ne hst

theorem publishes_publishRelease (hs : 0 ≤ s) (hs' : s < kShmMaxSlots) :
    Publishes 0 s shm (shm.publishRelease t) :=
  publishes_of_stores .release hs hs' rfl fun _ => rfl

theorem publishes_publishPing (hs : 0 ≤ s) (hs' : s < kShmMaxSlots) {ping : Int} :
    Publishes 0 s shm (shm.publishPing t ping) :=
  publishes_of_stores (.ping ping) hs hs' rfl fun _ => rfl

theorem slot_publishDisguise_of_ne {f : PluginFeatures} {r : Rand} {b : BotIdentity} (h : s ≠ t) :
    (publishDisguise f shm r t b).1.slot s = shm.slot s := by
  have hite : ∀ (P : Prop) [Decidable P] (shm : Shm) (g : ShmSlot → ShmSlot),
      (if P then shm.publish t g else shm).slot s = shm.slot s := by
    intro P _ shm g
    split
    · exact Shm.slot_publish_of_ne h
    · rfl
  have hadopted : ((shm.publishAdopt t b.steamId b.name).bumpIncarnation t).slot s = shm.slot s :=
    (Shm.slot_publish_of_ne h).trans (Shm.slot_publish_of_ne h)
  rw [publishDisguise]
  dsimp only
  refine (hite _ _ _).trans ((hite _ _ _).trans ?_)
  split
  · exact (hite _ _ _).trans hadopted
  · exact hadopted

theorem publishes_publishDisguise {f : PluginFeatures} {r : Rand} {b : BotIdentity} (hs : 0 ≤ s)
    (hs' : s < kShmMaxSlots) :
    Publishes (if t = s then 1 else 0) s shm (publishDisguise f shm r t b).1 := by
  refine ⟨Shm.mapped_publishDisguise, fun hm => ?_⟩
  split
  · subst t
    obtain ⟨others, hkeep, hslot⟩ := slot_publishDisguise_stores (b := b) (f := f) (r := r) hm hs hs'
    have hnone : others.countP Publication.isAdoption = 0 := by
      rw [List.countP_eq_zero]
      intro op hop
      have := hkeep op hop
      cases op <;> simp_all [Publication.keepsOccupant, Publication.isAdoption]
    have hone : (Publication.adoption b.steamId (some b.name) :: others).countP
        Publication.isAdoption ≤ 1 := by
      rw [List.countP_cons, hnone, Publication.isAdoption]
      simp
    exact ⟨_, hone, hslot⟩
  · exact ⟨[], Nat.zero_le _, slot_publishDisguise_of_ne (Ne.symm ‹_›)⟩

theorem publishes_applyDisguise (hs : 0 ≤ s) (hs' : s < kShmMaxSlots) :
    Publishes (if t = s then 1 else 0) s st.shm (applyDisguise st t i).shm := by
  rcases applyDisguise_cases st t i with h | ⟨b, -, -, -, ⟨-, h⟩ | ⟨client, -, -, h⟩⟩
  · rw [h]
    exact .refl
  · rw [h]
    exact .refl
  · rw [h]
    exact publishes_publishDisguise hs hs'

theorem publishes_applyDisguiseIfPending (hs : 0 ≤ s) (hs' : s < kShmMaxSlots) :
    Publishes (if t = s then 1 else 0) s st.shm (applyDisguiseIfPending st t).shm := by
  rcases applyDisguiseIfPending_cases st t with h | ⟨i, -, h⟩
  · rw [h]
    exact .refl
  · rw [h]
    exact publishes_applyDisguise hs hs'

/-- A loop over all slots comes past each of them once. -/
theorem publishes_forSlots_applyDisguiseIfPending (hs : 0 ≤ s) (hs' : s < kShmMaxSlots) :
    Publishes 1 s st.shm (forSlots applyDisguiseIfPending st).shm := by
  have hother : ∀ n (y : State) t, t ≠ s → Publishes n s st.shm y.shm →
      Publishes n s st.shm (applyDisguiseIfPending y t).shm := by
    intro n y t ht h
    have hpass := @publishes_applyDisguiseIfPending y s t hs hs'
    rw [if_neg ht] at hpass
    exact h.trans hpass
  apply forSlots_at applyDisguiseIfPending (J := fun y => Publishes 0 s st.shm y.shm)
    (Q := fun y => Publishes 1 s st.shm y.shm) hs hs' (hother 0) _ (hother 1) .refl
  intro y h
  have hpass := @publishes_applyDisguiseIfPending y s s hs hs'
  rw [if_pos rfl] at hpass
  simpa using h.trans hpass

theorem publishes_restoreIdentity (hs : 0 ≤ s) (hs' : s < kShmMaxSlots) :
    Publishes 0 s st.shm (restoreIdentity st t).shm := by
  rw [restoreIdentity]
  split
  · exact .refl
  · exact publishes_publishRelease hs hs'

theorem publishes_releaseOccupant (hs : 0 ≤ s) (hs' : s < kShmMaxSlots) :
    Publishes 0 s st.shm (releaseOccupant st t).shm := by
  rw [releaseOccupant]
  split
  · exact publishes_publishRelease hs hs'
  · exact .refl

theorem publishes_releaseManagedSlots (hs : 0 ≤ s) (hs' : s < kShmMaxSlots) :
    Publishes 0 s st.shm (releaseManagedSlots st).shm := by
  rw [releaseManagedSlots]
  apply forSlots_invariant (I := fun y : State => Publishes 0 s st.shm y.shm)
  · intro y t h
    rw [releaseSlot]
    split
    · exact h
    · exact h.trans (publishes_restoreIdentity hs hs')
  · exact .refl

theorem publishes_applyMapGate {name : Bytes} (hs : 0 ≤ s) (hs' : s < kShmMaxSlots) :
    Publishes 0 s st.shm (applyMapGate st name).shm := by
  obtain ⟨gate, h⟩ | ⟨-, h⟩ := @applyMapGate_cases st name
  · rw [h]
    exact .refl
  · rw [h]
    exact publishes_releaseManagedSlots hs hs'

theorem publishes_pollMapGate (hs : 0 ≤ s) (hs' : s < kShmMaxSlots) :
    Publishes 0 s st.shm (pollMapGate st).shm := by
  rw [pollMapGate]
  split
  · exact .refl
  · exact publishes_applyMapGate hs hs'

theorem publishes_hintMapGate {name : Bytes} (hs : 0 ≤ s) (hs' : s < kShmMaxSlots) :
    Publishes 0 s st.shm (hintMapGate st name).shm := by
  rw [hintMapGate]
  split
  · exact .refl
  · exact publishes_applyMapGate hs hs'

theorem publishes_restorePlayerIdentity (hs : 0 ≤ s) (hs' : s < kShmMaxSlots) :
    Publishes 1 s st.shm (restorePlayerIdentity st).shm := by
  rw [restorePlayerIdentity]
  split
  · exact .refl
  · exact @publishes_forSlots_applyDisguiseIfPending { st with vote := _, world := _ } s hs hs'

theorem publishes_forceEndVoteTransaction (hs : 0 ≤ s) (hs' : s < kShmMaxSlots) :
    Publishes 1 s st.shm (forceEndVoteTransaction st).shm := by
  rw [forceEndVoteTransaction]
  split
  · exact .refl
  · exact @publishes_restorePlayerIdentity { st with vote := _ } s hs hs'

theorem publishes_tickVoteTransaction (hs : 0 ≤ s) (hs' : s < kShmMaxSlots) :
    Publishes 1 s st.shm (tickVoteTransaction st).shm := by
  rw [tickVoteTransaction]
  split
  · exact .refl
  · split
    · exact .refl
    · split
      · exact .refl
      · dsimp only
        split
        · exact .refl
        · exact @publishes_restorePlayerIdentity { st with vote := _ } s hs hs'

theorem publishes_jitterPings {nowSec : Float} (hs : 0 ≤ s) (hs' : s < kShmMaxSlots) :
    Publishes 0 s st.shm (jitterPings st nowSec).shm := by
  rw [jitterPings]
  split
  · exact .refl
  · split
    · exact .refl
    · apply forSlots_invariant (I := fun p : Shm × Rand => Publishes 0 s st.shm p.1) _ .refl
      intro p t h
      rcases jitterSlot_cases _ st.ids p t with hp | ⟨ping, hp⟩
      · rw [hp]
        exact h
      · rw [hp]
        exact h.trans (publishes_publishPing hs hs')

theorem publishes_onClientConnected {name : Option Bytes} {xuid : UInt64} {fakePlayer : Bool} (hs : 0 ≤ s)
    (hs' : s < kShmMaxSlots) :
    Publishes 1 s st.shm (onClientConnected st t name xuid fakePlayer).shm := by
  have hreleased : Publishes 0 s st.shm (releaseOccupant st t).shm := publishes_releaseOccupant hs hs'
  rcases onClientConnected_cases st t name xuid fakePlayer with
    ⟨-, h⟩ | ⟨-, -, -, ⟨-, h⟩ | ⟨-, h⟩⟩
  · rw [h]
    exact .refl
  · rw [h]
    exact hreleased.mono (by omega)
  · rw [h]
    rcases assignIdentity_cases (releaseOccupant st t) t with ⟨bots, r', -, ha⟩ | ⟨i, bots, r', -, ha⟩
    · rw [ha]
      exact hreleased.mono (by omega)
    · rw [ha]
      have hdisguised := @publishes_applyDisguise (markIdentity (releaseOccupant st t) t i bots r') s t i hs hs'
      have hpublished := (hreleased.trans hdisguised).mono (k := 1) (by split <;> omega)
      exact hpublished

theorem shm_beginVoteTransaction : (beginVoteTransaction st).shm = st.shm := by
  rw [beginVoteTransaction]
  dsimp only
  split <;> rfl

theorem shm_beginVoteTransactionForSlot : (beginVoteTransactionForSlot st t).shm = st.shm := by
  rw [beginVoteTransactionForSlot]
  dsimp only
  split <;> rfl

theorem shm_kickManagedBotByUserId : (kickManagedBotByUserId st t).shm = st.shm := by
  rw [kickManagedBotByUserId]
  split
  · rfl
  · dsimp only
    split <;> rfl

theorem shm_kickNamedBot : (kickNamedBot E st t).shm = st.shm := by
  rw [kickNamedBot, shm_kickManagedBotByUserId]
  dsimp only
  split
  · exact shm_beginVoteTransactionForSlot
  · rfl

theorem shm_kickGroup {name target : Bytes} : (kickGroup E st name target).shm = st.shm := by
  rw [kickGroup]
  dsimp only
  split
  · split
    · exact shm_beginVoteTransaction
    · rfl
  · split
    · exact shm_beginVoteTransaction
    · rfl

theorem publishes_dispatchConCommandPre {command : Option Bytes} {arguments : List Bytes} (hs : 0 ≤ s)
    (hs' : s < kShmMaxSlots) :
    Publishes 1 s st.shm (dispatchConCommandPre E st command arguments).shm := by
  rcases dispatchConCommandPre_cases E st command arguments with
    h | ⟨-, h | ⟨t, h⟩ | ⟨name, target, h⟩ | ⟨-, -, h⟩⟩
  · rw [h]
    exact .refl
  · rw [h, shm_beginVoteTransaction]
    exact .refl
  · rw [h, shm_kickNamedBot]
    exact .refl
  · rw [h, shm_kickGroup]
    exact .refl
  · rw [h]
    exact publishes_forceEndVoteTransaction hs hs'

theorem publishes_dispatchConCommandPost {command : Option Bytes} {arguments : List Bytes} (hs : 0 ≤ s)
    (hs' : s < kShmMaxSlots) :
    Publishes 1 s st.shm (dispatchConCommandPost E st command arguments).shm := by
  have hpoll : ∀ st : State, Publishes 0 s st.shm (pollMapGate st).shm :=
    fun st => publishes_pollMapGate hs hs'
  rcases dispatchConCommandPost_cases E st command arguments with
    h | ⟨-, h | ⟨arg, -, h⟩⟩ | ⟨-, h | ⟨st₁, hst, h⟩⟩
  · rw [h]
    exact .refl
  · rw [h]
    exact (hpoll st).mono (by omega)
  · rw [h]
    exact ((publishes_hintMapGate hs hs').trans (hpoll _)).mono (by omega)
  · rw [h]
    exact .refl
  · have hkick : st₁.shm = st.shm := by
      rcases hst with rfl | rfl
      · rfl
      · rw [endKickCommand]
        split
        · rfl
        · dsimp only
          split <;> rfl
    rw [← hkick]
    rcases h with h | h | ⟨-, h⟩
    · rw [h]
      exact .refl
    · rw [h]
      exact .refl
    · rw [h, show (reapAfterPopulationCommand E (applyPendingDisguises st₁)).shm =
        (applyPendingDisguises st₁).shm from rfl, applyPendingDisguises]
      split
      · exact .refl
      · exact publishes_forSlots_applyDisguiseIfPending hs hs'

theorem publishes_gameFrame {nowSec : Float} (hs : 0 ≤ s) (hs' : s < kShmMaxSlots) :
    Publishes 1 s st.shm (gameFrame E st nowSec).shm := by
  have hpoll : Publishes 0 s st.shm (pollMapGate st).shm := publishes_pollMapGate hs hs'
  rw [gameFrame]
  dsimp only
  split
  · exact hpoll.mono (by omega)
  · have htick : Publishes 1 s (pollMapGate st).shm (tickVoteTransaction (pollMapGate st)).shm :=
      publishes_tickVoteTransaction hs hs'
    refine ((hpoll.trans htick).trans (k := 0) ?_).mono (by omega)
    exact publishes_jitterPings hs hs'

/-- No hook adopts a slot twice. -/
theorem publishes_runHook (hook : Hook) (hs : 0 ≤ s) (hs' : s < kShmMaxSlots) :
    Publishes 1 s st.shm (runHook E st hook).shm := by
  cases hook with
  | onClientConnected slot name xuid fakePlayer => exact publishes_onClientConnected hs hs'
  | clientPutInServer slot =>
    rw [runHook, clientPutInServer]
    split
    · exact .refl
    · exact (publishes_applyDisguiseIfPending hs hs').mono (by split <;> omega)
  | clientDisconnect slot reason =>
    rw [runHook]
    rcases clientDisconnect_cases E st slot reason with ⟨-, h⟩ | ⟨-, pending, h⟩
    · rw [h]
      exact .refl
    · rw [h]
      exact (@publishes_restoreIdentity { st with vote := _, world := _ } s _ hs hs').mono (by omega)
  | dispatchConCommandPre command arguments => exact publishes_dispatchConCommandPre hs hs'
  | dispatchConCommandPost command arguments => exact publishes_dispatchConCommandPost hs hs'
  | gameFrame nowSec => exact publishes_gameFrame hs hs'
  | onLevelInit mapName =>
    have hpoll : ∀ st : State, Publishes 0 s st.shm (pollMapGate st).shm :=
      fun st => publishes_pollMapGate hs hs'
    cases mapName with
    | none => exact (hpoll st).mono (by omega)
    | some name =>
      rw [runHook, onLevelInit]
      split
      · exact ((publishes_applyMapGate hs hs').trans (hpoll _)).mono (by omega)
      · exact (hpoll st).mono (by omega)

theorem publishes_run (hs : 0 ≤ s) (hs' : s < kShmMaxSlots) :
    Publishes es.length s st.shm (run (step E) st es).shm := by
  induction es generalizing st with
  | nil => exact .refl
  | cons ev es ih =>
    have hstep : Publishes 1 s st.shm (step E st ev).shm := publishes_runHook ev.hook hs hs'
    exact (hstep.trans ih).mono (by simp [Nat.add_comm])

theorem incarnation_publications :
    (run ShmSlot.store c (ops.flatMap Publication.stores)).incarnation =
      c.incarnation + UInt64.ofNat (ops.countP Publication.isAdoption) := by
  induction ops generalizing c with
  | nil => exact (UInt64.add_zero _).symm
  | cons op ops ih =>
    rw [List.flatMap_cons, run_append, ih]
    cases op with
    | adoption steamId name =>
      have hstores : (run ShmSlot.store c (Publication.adoption steamId name).stores).incarnation =
          c.incarnation + 1 := by
        cases name <;> rfl
      rw [hstores, List.countP_cons_of_pos rfl, Nat.add_comm, UInt64.ofNat_add, UInt64.add_assoc]
      rfl
    | release | ping | crosshair | scoreboardFlair =>
      rw [List.countP_cons_of_neg (by simp [Publication.isAdoption])]
      rfl

/-- Without an adoption a slot that ends up managed has kept its occupant. -/
theorem record_of_no_adoption (hops : ops.countP Publication.isAdoption = 0)
    (hstate : (run ShmSlot.store c (ops.flatMap Publication.stores)).slotState ≠ 0) :
    (run ShmSlot.store c (ops.flatMap Publication.stores)).record = c.record := by
  induction ops generalizing c with
  | nil => rfl
  | cons op ops ih =>
    rw [List.flatMap_cons, run_append] at hstate ⊢
    rw [List.countP_cons, Nat.add_eq_zero_iff] at hops
    have hrest := ih hops.1 hstate
    rw [hrest]
    cases op with
    | adoption steamId name => simp [Publication.isAdoption] at hops
    | release =>
      -- a released slot stays unmanaged
      have hzero := congrArg ShmRecord.slotState hrest
      exact absurd hzero hstate
    | ping | crosshair | scoreboardFlair => rfl

/-- Fewer adoptions than the counter has values, the same count and a managed slot: nothing happened to
the occupant, in between neither. -/
theorem record_of_incarnation (h : Publishes n s shm shm') (h' : Publishes k s shm' shm'')
    (hm : shm.mapped = true) (hlt : n + k < 2 ^ 64)
    (hincarnation : (shm''.slot s).incarnation = (shm.slot s).incarnation)
    (hstate : (shm''.slot s).slotState ≠ 0) :
    (shm'.slot s).slotState ≠ 0 ∧ (shm'.slot s).record = (shm.slot s).record ∧
      (shm'.slot s).incarnation = (shm.slot s).incarnation := by
  obtain ⟨ops, hops, hslot⟩ := h.2 hm
  obtain ⟨ops', hops', hslot'⟩ := h'.2 (h.1.trans hm)
  have hcount : (ops.countP Publication.isAdoption + ops'.countP Publication.isAdoption) % 2 ^ 64 = 0 := by
    rw [hslot', incarnation_publications, hslot, incarnation_publications, UInt64.add_assoc,
      ← UInt64.ofNat_add] at hincarnation
    have hsum := congrArg UInt64.toNat hincarnation
    rw [UInt64.toNat_add, UInt64.toNat_ofNat'] at hsum
    have hlt' := (shm.slot s).incarnation.toNat_lt
    omega
  rw [Nat.mod_eq_of_lt (by omega)] at hcount
  rw [hslot'] at hstate
  have hlast := congrArg ShmRecord.slotState (record_of_no_adoption (by omega) hstate)
  have hmanaged : (shm'.slot s).slotState ≠ 0 := by
    intro hzero
    exact hstate (hlast.trans hzero)
  refine ⟨hmanaged, ?_⟩
  rw [hslot] at hmanaged ⊢
  refine ⟨record_of_no_adoption (by omega) hmanaged, ?_⟩
  rw [incarnation_publications, show ops.countP Publication.isAdoption = 0 by omega]
  exact UInt64.add_zero _

theorem isManagedBotIncarnation_of_region (h : RegionOf shm m) (hs : 0 ≤ s) (hs' : s < kShmMaxSlots) :
    isManagedBotIncarnation connected m s incarnation =
      some (decide ((shm.slot s).slotState ≠ 0) && decide ((shm.slot s).incarnation = incarnation)) := by
  rw [isManagedBotIncarnation, isManagedBot_of_region h hs hs', getSlotIncarnation_of_region h hs hs']
  by_cases hstate : (shm.slot s).slotState = 0
  · simp [hstate]
  · simp [hstate]

/-- A snapshot that passes `IsManagedBotIncarnation` after any run of hooks shorter than the counter's
range has been right before every one of them, and still is. -/
theorem revalidated_snapshot_right_throughout (connected connected' : Bool) (m m' : Mem)
    (h : ShmView.Refines (some m) st.shm) (h' : ShmView.Refines (some m') (run (step E) st es).shm)
    (hlen : es.length < 2 ^ 64) :
    ∀ snapshots, getManagedBotSnapshots connected (fun _ => m) = some snapshots →
      ∀ snapshot ∈ snapshots,
        isManagedBotIncarnation connected' m' snapshot.slot snapshot.incarnation = some true →
        ∀ n, ((run (step E) st (es.take n)).shm.slot snapshot.slot).slotState ≠ 0 ∧
          snapshot = snapshotOf snapshot.slot
            ((run (step E) st (es.take n)).shm.slot snapshot.slot) := by
  intro snapshots hcall snapshot hsnapshot hvalid n
  have hregion : ∀ _ : Nat, RegionOf st.shm m := fun _ => h.2
  obtain ⟨snapshots', hcall', hmap, hmem⟩ :=
    @getManagedBotSnapshots_of_region connected (fun _ => m) (fun _ => st.shm) hregion
  obtain rfl : snapshots' = snapshots := Option.some.inj (hcall'.symm.trans hcall)
  obtain ⟨hrange, -⟩ := mem_managedSeen.mp (hmap ▸ List.mem_map_of_mem hsnapshot)
  obtain ⟨hs, hs'⟩ := hrange
  obtain ⟨j, hj⟩ := hmem snapshot hsnapshot
  have hshown : snapshot = snapshotOf snapshot.slot (st.shm.slot snapshot.slot) :=
    snapshot_eq_of_region hregion hs hs' (fun _ => rfl) hj
  rw [isManagedBotIncarnation_of_region h'.2 hs hs'] at hvalid
  simp only [Option.some.injEq, Bool.and_eq_true, decide_eq_true_eq] at hvalid
  have hincarnation : snapshot.incarnation = (st.shm.slot snapshot.slot).incarnation :=
    congrArg ManagedBotSnapshot.incarnation hshown
  have hprefix : Publishes (es.take n).length snapshot.slot st.shm (run (step E) st (es.take n)).shm :=
    publishes_run hs hs'
  have hsuffix : Publishes (es.drop n).length snapshot.slot (run (step E) st (es.take n)).shm
      (run (step E) st es).shm := by
    have := @publishes_run E (run (step E) st (es.take n)) (es.drop n) _ hs hs'
    rwa [← run_append, List.take_append_drop] at this
  have hlt : (es.take n).length + (es.drop n).length < 2 ^ 64 := by
    rw [← List.length_append, List.take_append_drop]
    exact hlen
  obtain ⟨hstate, hrecord, hsame⟩ := record_of_incarnation hprefix hsuffix h.1 hlt
    (hvalid.2.trans hincarnation) hvalid.1
  refine ⟨hstate, ?_⟩
  rw [ShmSlot.record, ShmSlot.record, ShmRecord.mk.injEq] at hrecord
  rw [snapshotOf, hsame, hrecord.2.1, hrecord.2.2]
  exact hshown

/-- The calls of one adoption on slot 0. -/
def adoptionCalls : List (Int × SlotCall) :=
  [(0, .adopt 76561197960265729 (some (ascii "INTEL"))), (0, .bumpIncarnation)]

/-- A plugin whose region has seen them. -/
def adoptedState : State :=
  { soloLoad with shm := adoptionCalls.foldl (fun shm c => shm.call c.1 c.2) (Shm.init true) }

theorem refines_adoptedState : ∃ m, ShmView.Refines (some m) adoptedState.shm :=
  exists_refines_foldl_call adoptionCalls

theorem revalidated_snapshot_right_throughout_of_player_connect :
    ∃ m, RegionOf adoptedState.shm m ∧
      ∀ snapshots, getManagedBotSnapshots false (fun _ => m) = some snapshots →
        ∀ snapshot ∈ snapshots,
          isManagedBotIncarnation true m snapshot.slot snapshot.incarnation = some true →
          ∀ n, ((run (step .idle) adoptedState
              ([onSolo (.onClientConnected 1 none 76561197960265730 false)].take n)).shm.slot
                snapshot.slot).slotState ≠ 0 ∧
            snapshot = snapshotOf snapshot.slot ((run (step .idle) adoptedState
              ([onSolo (.onClientConnected 1 none 76561197960265730 false)].take n)).shm.slot
                snapshot.slot) := by
  obtain ⟨m, hm⟩ := refines_adoptedState
  have hplayer : ShmView.Refines (some m) (run (step .idle) adoptedState
      [onSolo (.onClientConnected 1 none 76561197960265730 false)]).shm := hm
  exact ⟨m, hm.2, revalidated_snapshot_right_throughout false true m m hm hplayer (by decide)⟩

end Botid
