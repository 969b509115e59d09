import Botid.Identities
import Botid.Machine
import Botid.ShmPub
import Botid.World
import Mathlib.Data.List.Nodup

/-! Everything the plugin keeps between hooks, with the engine as the running hook sees it. -/
namespace Botid

/-- A `uint64` copy of the disguise SteamID64 that a window found and zeroed. -/
structure SteamIdCopy where
  offset : Nat
  value : UInt64
  onController : Bool
  deriving DecidableEq

structure VoteSlotSnapshot where
  captured : Bool := false
  slot : Int := -1
  client : Option Ptr := none
  entityIndex : Int := -1
  connectionFlags : UInt8 := 0
  fakePlayer : UInt8 := 0
  sscSteamId : UInt64 := 0
  hasController : Bool := false
  controller : Option Ptr := none
  controllerFlags : UInt32 := 0
  controllerHandle : UInt32 := 0
  controllerOff1800 : UInt64 := 0
  copies : List SteamIdCopy := []
  deriving DecidableEq

/-- The globals of `vote_transaction`. -/
structure Vote where
  depth : UInt32 := 0
  snapshots : Int → VoteSlotSnapshot := fun _ => {}
  valid : Bool := false
  endScheduled : Bool := false
  holdFramesRemaining : Int := 0

/-- `VoteTransactionActive`. -/
def Vote.active (v : Vote) : Bool := v.depth ≠ 0

structure PendingControllerRemoval where
  controller : Ptr
  handle : UInt32
  slot : Int
  userId : UInt16
  referencedFrames : Nat := 0

/-- `s_MapSuspended` and `s_GateMap`. -/
structure Gate where
  suspended : Bool := false
  gateMap : Bytes := []

structure State where
  features : PluginFeatures
  mapBlacklist : List Bytes
  ids : Identities
  gate : Gate := {}
  vote : Vote := {}
  populationDepth : UInt32 := 0
  lastJitterTime : Float := 0
  pending : List PendingControllerRemoval := []
  shm : Shm
  rand : Rand
  /-- What `ServerCommand` has queued, oldest first. -/
  serverCommands : List Bytes := []
  world : World

/-- The slots a `for (slot = 0; slot < kMaxSlots; ++slot)` loop visits. -/
def allSlots : List Int := (List.range 64).map Int.ofNat

/-- A loop over all slots. -/
@[irreducible] def forSlots {σ : Type} (body : σ → Int → σ) (s : σ) : σ := Machine.run body s allSlots

theorem mem_allSlots {s : Int} : s ∈ allSlots ↔ 0 ≤ s ∧ s < kMaxSlots := by
  simp only [allSlots, List.mem_map, List.mem_range, kMaxSlots]
  constructor
  · rintro ⟨n, hn, rfl⟩
    exact ⟨Int.natCast_nonneg n, by simpa using hn⟩
  · rintro ⟨h0, h1⟩
    exact ⟨s.toNat, by omega, by simpa using h0⟩

theorem nodup_allSlots : allSlots.Nodup :=
  List.Nodup.map (fun _ _ h => Int.ofNat.inj h) List.nodup_range

variable {σ : Type} {body : σ → Int → σ} {x : σ} {s : Int}

theorem forSlots_invariant {I : σ → Prop} (hbody : ∀ y t, I y → I (body y t)) (hx : I x) :
    I (forSlots body x) := by
  rw [forSlots]
  exact Machine.run_invariant_of_step hbody hx

/-- The loop body knows the slot it runs for is in range. -/
theorem forSlots_invariant_of_mem {I : σ → Prop}
    (hbody : ∀ y t, 0 ≤ t → t < kMaxSlots → I y → I (body y t)) (hx : I x) :
    I (forSlots body x) := by
  rw [forSlots]
  have hmem : Machine.Guarded body (fun _ t => 0 ≤ t ∧ t < kMaxSlots) x allSlots :=
    Machine.guarded_of_forall fun t ht _ => mem_allSlots.mp ht
  exact Machine.run_invariant (fun y t ht => hbody y t ht.1 ht.2) hmem hx

theorem forSlots_establishes {P : Int → σ → Prop} (hset : ∀ y t, P t (body y t))
    (hkeep : ∀ y t u, P t y → P t (body y u)) (hs : 0 ≤ s) (hs' : s < kMaxSlots) :
    P s (forSlots body x) := by
  rw [forSlots]
  exact Machine.run_establishes hset hkeep (mem_allSlots.mpr ⟨hs, hs'⟩)

/-- What the pass for one slot establishes, when the passes before leave its input alone and the
passes after leave its result alone. -/
theorem forSlots_at (body : σ → Int → σ) {J Q : σ → Prop} (hs : 0 ≤ s) (hs' : s < kMaxSlots)
    (hpre : ∀ y t, t ≠ s → J y → J (body y t)) (hat : ∀ y, J y → Q (body y s))
    (hpost : ∀ y t, t ≠ s → Q y → Q (body y t)) (hx : J x) : Q (forSlots body x) := by
  obtain ⟨before, after, hsplit⟩ := List.append_of_mem (mem_allSlots.mpr ⟨hs, hs'⟩)
  have hnodup : (before ++ s :: after).Nodup := hsplit ▸ nodup_allSlots
  have hbefore : ∀ t ∈ before, t ≠ s := by
    rintro t ht rfl
    exact (List.nodup_append.mp hnodup).2.2 t ht t List.mem_cons_self rfl
  have hafter : ∀ t ∈ after, t ≠ s := by
    rintro t ht rfl
    exact (List.nodup_cons.mp (List.nodup_append.mp hnodup).2.1).1 ht
  rw [forSlots, hsplit, Machine.run_append, Machine.run_cons]
  apply Machine.run_invariant hpost
  · exact Machine.guarded_of_forall fun t ht _ => hafter t ht
  · apply hat
    exact Machine.run_invariant hpre
      (Machine.guarded_of_forall fun t ht _ => hbefore t ht) hx

end Botid
