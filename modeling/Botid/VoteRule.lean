import Botid.SingleSlot

/-! One rule for invariants of the identity window: what its operations keep, every hook keeps. -/
namespace Botid

open Machine

variable {E : EngineCalls} {st : State} {es : List Event} {s : Int} {v : Vote} {w : World}
  {I : Vote → Prop} {S : Int → VoteSlotSnapshot → Prop} {x : VoteSlotSnapshot} {ids : Identities}

/-- The operations on a window that take no snapshot keep `I`. -/
structure VoteRule (I : Vote → Prop) : Prop where
  reset : I resetVoteTransaction
  counted : ∀ v depth scheduled hold, I v →
    I { v with depth := depth, endScheduled := scheduled, holdFramesRemaining := hold }
  reasserted : ∀ ids v w, v.valid = true → I v → I (forSlots (reassertSlot ids) (v, w)).1
  restored : ∀ ids v w, v.valid = true → I v →
    I (forSlots (restoreSlot ids) ({ v with valid := false }, w)).1
  resetSlot : ∀ v s, I v → I (resetVoteTransactionSlot v s)

/-- So do those that open one, for everybody or for one slot. -/
structure OpeningRule (I : Vote → Prop) : Prop where
  everyone : ∀ ids v w, I (captureManagedSlots ids v w).1
  one : ∀ ids v w s, I { (captureOneManagedSlot ids (Vote.clearSnapshots v) w s).2.1 with
    valid := (captureOneManagedSlot ids (Vote.clearSnapshots v) w s).1 }

theorem vote_jitterPings {nowSec : Float} : (jitterPings st nowSec).vote = st.vote := by
  rw [jitterPings]
  split
  · rfl
  · split <;> rfl

section Hooks

variable (hI : VoteRule I)
include hI

theorem VoteRule.close (h : I st.vote) : I (closeVoteTransaction st).vote := by
  have hclosed := hI.counted st.vote 0 false 0 h
  rw [closeVoteTransaction, restorePlayerIdentity]
  split
  · exact hclosed
  · rename_i hvalid
    dsimp only
    rw [vote_applyPending]
    exact hI.restored st.ids _ st.world (by simpa using hvalid) hclosed

theorem VoteRule.forceEnd (h : I st.vote) : I (forceEndVoteTransaction st).vote := by
  rw [forceEndVoteTransaction]
  split
  · exact h
  · exact hI.close h

theorem VoteRule.tick (h : I st.vote) : I (tickVoteTransaction st).vote := by
  rw [tickVoteTransaction]
  split
  · exact h
  · split
    · exact hI.reset
    · split
      · exact h
      · split
        · apply hI.counted _ _ _ (_ - 1)
          rw [reassertNativeVoteMarkers]
          split
          · exact h
          · rename_i hvalid
            exact hI.reasserted st.ids st.vote st.world (by simpa using hvalid) h
        · exact hI.close h

theorem VoteRule.begin (ho : st.vote.depth = 0 → OpeningRule I) (h : I st.vote) :
    I (beginVoteTransaction st).vote := by
  rw [beginVoteTransaction]
  dsimp only
  split
  · rename_i h0
    exact (ho h0).everyone _ _ _
  · exact hI.counted st.vote _ _ _ h

theorem VoteRule.beginForSlot (ho : st.vote.depth = 0 → OpeningRule I) (h : I st.vote) :
    I (beginVoteTransactionForSlot st s).vote := by
  rw [beginVoteTransactionForSlot]
  dsimp only
  split
  · rename_i h0
    exact (ho h0).one _ _ _ _
  · exact hI.counted st.vote _ _ _ h

theorem VoteRule.applyMapGate {name : Bytes} (h : I st.vote) : I (applyMapGate st name).vote := by
  obtain ⟨gate, heq⟩ | ⟨-, heq⟩ := @applyMapGate_cases st name
  · rw [heq]
    exact h
  · obtain ⟨ids, shm, w, -, hreleased⟩ := releaseManagedSlots_eq st
    rw [heq, hreleased]
    exact hI.reset

theorem VoteRule.pollMapGate (h : I st.vote) : I (pollMapGate st).vote := by
  rw [Botid.pollMapGate]
  split
  · exact h
  · exact hI.applyMapGate h

theorem VoteRule.onClientConnected {name : Option Bytes} {xuid : UInt64} {fakePlayer : Bool}
    (h : I st.vote) : I (onClientConnected st s name xuid fakePlayer).vote := by
  have hreleased : I (releaseOccupant st s).vote := by
    rw [releaseOccupant]
    split
    · exact hI.resetSlot _ _ h
    · exact h
  rcases onClientConnected_cases st s name xuid fakePlayer with
    ⟨-, heq⟩ | ⟨-, -, -, ⟨-, heq⟩ | ⟨-, heq⟩⟩
  · rwa [heq]
  · rwa [heq]
  · rw [heq]
    rcases assignIdentity_cases (releaseOccupant st s) s with
      ⟨bots, r', -, ha⟩ | ⟨i, bots, r', -, ha⟩
    · rwa [ha]
    · rw [ha, vote_applyDisguise]
      exact hreleased

theorem VoteRule.dispatchConCommandPre {command : Option Bytes} {arguments : List Bytes}
    (ho : st.vote.depth = 0 → OpeningRule I) (h : I st.vote) :
    I (dispatchConCommandPre E st command arguments).vote := by
  have hkick : ∀ (st : State) s, (kickManagedBotByUserId st s).vote = st.vote := by
    intro st s
    rw [kickManagedBotByUserId]
    split
    · rfl
    · dsimp only
      split <;> rfl
  rcases dispatchConCommandPre_cases E st command arguments with
    heq | ⟨-, heq | ⟨t, heq⟩ | ⟨name, target, heq⟩ | ⟨-, -, heq⟩⟩
  · rwa [heq]
  · rw [heq]
    exact hI.begin ho h
  · rw [heq, kickNamedBot, hkick]
    dsimp only
    split
    · exact @VoteRule.beginForSlot { st with world := _ } _ I hI ho h
    · exact h
  · rw [heq, kickGroup]
    dsimp only
    split
    · split
      · exact @VoteRule.begin { st with world := _ } I hI ho h
      · exact h
    · split
      · exact hI.begin ho h
      · exact h
  · rw [heq]
    exact hI.forceEnd h

theorem VoteRule.dispatchConCommandPost {command : Option Bytes} {arguments : List Bytes}
    (h : I st.vote) : I (dispatchConCommandPost E st command arguments).vote := by
  have hhold : ∀ st : State, I st.vote → I (scheduleHold st).vote := by
    intro st h
    dsimp only [scheduleHold]
    rw [scheduleVoteTransactionEnd]
    split
    · exact h
    · exact hI.counted st.vote _ _ _ h
  rcases dispatchConCommandPost_cases E st command arguments with
    heq | ⟨-, heq | ⟨arg, -, heq⟩⟩ | ⟨-, heq | ⟨st₁, hst, heq⟩⟩
  · rwa [heq]
  · rw [heq]
    exact hI.pollMapGate h
  · rw [heq]
    refine hI.pollMapGate ?_
    rw [hintMapGate]
    split
    · exact h
    · exact hI.applyMapGate h
  · rw [heq]
    exact hhold st h
  · have hkick : I st₁.vote := by
      rcases hst with rfl | rfl
      · exact h
      · rw [endKickCommand]
        split
        · exact h
        · dsimp only
          split
          · exact hhold { st with populationDepth := _ } h
          · exact h
    rcases heq with heq | heq | ⟨-, heq⟩
    · rwa [heq]
    · rw [heq]
      exact hkick
    · rw [heq]
      change I (applyPendingDisguises st₁).vote
      rw [applyPendingDisguises]
      split
      · exact hkick
      · rwa [vote_applyPending]

/-- Every hook keeps what the operations keep; an opening counts only where no window is open yet. -/
theorem VoteRule.runHook (hook : Hook) (ho : st.vote.depth = 0 → OpeningRule I) (h : I st.vote) :
    I (runHook E st hook).vote := by
  cases hook with
  | onClientConnected slot name xuid fakePlayer => exact hI.onClientConnected h
  | clientPutInServer slot =>
    rw [Botid.runHook, clientPutInServer]
    split
    · exact h
    · rwa [vote_applyDisguiseIfPending]
  | clientDisconnect slot reason =>
    rw [Botid.runHook]
    rcases clientDisconnect_cases E st slot reason with ⟨-, heq⟩ | ⟨-, pending, heq⟩
    · rwa [heq]
    · rw [heq]
      dsimp only
      rw [vote_restoreIdentity]
      exact hI.resetSlot _ _ h
  | dispatchConCommandPre command arguments => exact hI.dispatchConCommandPre ho h
  | dispatchConCommandPost command arguments => exact hI.dispatchConCommandPost h
  | gameFrame nowSec =>
    have hpoll : I (Botid.pollMapGate st).vote := hI.pollMapGate h
    rw [Botid.runHook, gameFrame]
    dsimp only
    split
    · exact hpoll
    · rw [vote_jitterPings]
      exact hI.tick hpoll
  | onLevelInit mapName =>
    apply hI.pollMapGate
    cases mapName with
    | none => exact h
    | some name =>
      dsimp only
      split
      · exact hI.applyMapGate h
      · exact h

theorem VoteRule.run (ho : OpeningRule I) (h : I st.vote) : I (run (step E) st es).vote :=
  run_invariant_of_step (I := fun st : State => I st.vote)
    (fun st ev h => @VoteRule.runHook E (st.withWorld ev.world) I hI ev.hook (fun _ => ho) h) h

/-- While a window stays open, nothing is opened. -/
theorem VoteRule.run_of_active
    (hopen : Guarded (step E) (fun st _ => st.vote.active = true) st es) (h : I st.vote) :
    I (Machine.run (step E) st es).vote := by
  refine run_invariant (I := fun st : State => I st.vote) (fun st ev hactive h => ?_) hopen h
  refine @VoteRule.runHook E (st.withWorld ev.world) I hI ev.hook (fun h0 => ?_) h
  rw [Vote.active, decide_eq_true_eq] at hactive
  exact absurd h0 hactive

end Hooks

/-- What the window code does to the snapshot of a slot, once it is taken, keeps `S`. -/
structure SnapshotRule (S : Int → VoteSlotSnapshot → Prop) : Prop where
  empty : ∀ t, S t {}
  marked : ∀ w t x client controller, S t x → S t (applyNativeVoteMarkers w x client controller).1
  dropped : ∀ t x, S t x → S t { x with captured := false }

/-- All snapshots. -/
def Vote.All (S : Int → VoteSlotSnapshot → Prop) (v : Vote) : Prop := ∀ s, S s (v.snapshots s)

theorem Vote.All.setSnapshot (h : v.All S) (hx : S s x) : (v.setSnapshot s x).All S := by
  intro t
  by_cases hts : t = s
  · subst hts
    rwa [setSnapshot_self]
  · have hother : (v.setSnapshot s x).snapshots t = v.snapshots t := Function.update_of_ne hts _ _
    rw [hother]
    exact h t

section Snapshots

variable (hS : SnapshotRule S)
include hS

theorem all_reassertSlot {y : Vote × World} {t : Int} (h : y.1.All S) :
    (reassertSlot ids y t).1.All S := by
  rw [reassertSlot]
  dsimp only
  split
  · exact h
  · split
    · exact h
    · split
      · exact h
      · exact h.setSnapshot (hS.marked _ _ _ _ _ (h t))

theorem all_restoreSlot {y : Vote × World} {t : Int} (h : y.1.All S) :
    (restoreSlot ids y t).1.All S := by
  have hdropped := @Vote.All.setSnapshot t y.1 S _ h (hS.dropped _ _ (h t))
  rw [restoreSlot]
  dsimp only
  split
  · exact h
  · split
    · exact hdropped
    · split
      · exact hdropped
      · split
        · exact hdropped
        · exact hdropped

theorem SnapshotRule.voteRule : VoteRule (Vote.All S) where
  reset := hS.empty
  counted _ _ _ _ h := h
  reasserted ids v w _ h :=
    forSlots_invariant (I := fun y : Vote × World => y.1.All S) (fun _ _ h => all_reassertSlot hS h) h
  restored ids v w _ h :=
    forSlots_invariant (I := fun y : Vote × World => y.1.All S) (fun _ _ h => all_restoreSlot hS h) h
  resetSlot v s h := by
    rw [resetVoteTransactionSlot]
    split
    · exact h
    · split
      · exact h
      · exact h.setSnapshot (hS.empty s)

theorem all_captureOneManagedSlot
    (htaken : ∀ w slot client, 0 ≤ slot → slot < kMaxSlots → S slot (takeSnapshot w slot client))
    (h : v.All S) : (captureOneManagedSlot ids v w s).2.1.All S := by
  rw [captureOneManagedSlot]
  split
  · exact h
  · rename_i hrange
    rw [not_or, Int.not_lt, Int.not_le] at hrange
    have hempty := @Vote.All.setSnapshot s v S {} h (hS.empty s)
    dsimp only
    split
    · exact hempty
    · split
      · exact hempty
      · exact hempty.setSnapshot (hS.marked _ _ _ _ _ (htaken _ _ _ hrange.1 hrange.2))

/-- A snapshot that has `S` when it is taken for its slot. -/
theorem SnapshotRule.openingRule
    (htaken : ∀ w slot client, 0 ≤ slot → slot < kMaxSlots → S slot (takeSnapshot w slot client)) :
    OpeningRule (Vote.All S) where
  everyone ids v w := by
    rw [captureManagedSlots]
    refine forSlots_invariant (I := fun y : Vote × World => y.1.All S) (fun y t h => ?_) hS.empty
    split
    · exact all_captureOneManagedSlot hS htaken h
    · exact h
  one ids v w s := @all_captureOneManagedSlot s v.clearSnapshots w S ids hS htaken hS.empty

end Snapshots

end Botid
