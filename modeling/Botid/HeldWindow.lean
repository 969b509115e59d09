import Botid.Suspension
import Botid.VoteRule

/-! A window that stays open: it captures nobody else, forgets nothing, and marks again at each frame. -/
namespace Botid

open ByteMem Machine World

variable {E : EngineCalls} {st : State} {es fs : List Event} {s t : Int} {v : Vote} {w : World}
  {x y z : VoteSlotSnapshot} {ids : Identities} {p : Ptr} {m : Mem} {copies : List SteamIdCopy}
  {target : UInt64} {onController : Bool} {nbytes fuel off : Nat} {nowSec : Float}

/-- The same snapshot, at most with more copies in its table. -/
structure VoteSlotSnapshot.Grew (x y : VoteSlotSnapshot) : Prop where
  same : y = { x with copies := y.copies }
  copies : x.copies <+: y.copies

theorem VoteSlotSnapshot.Grew.refl : x.Grew x := ⟨rfl, List.prefix_rfl⟩

theorem VoteSlotSnapshot.Grew.trans (h : x.Grew y) (h' : y.Grew z) : x.Grew z := by
  refine ⟨?_, h.copies.trans h'.copies⟩
  have hz := h'.same
  rwa [h.same] at hz

theorem prefix_scanFrom : copies <+: (scanFrom target onController nbytes fuel off copies m).1 := by
  induction fuel generalizing off copies m with
  | zero => exact List.prefix_rfl
  | succ fuel ih =>
    rw [scanFrom]
    split
    · exact List.prefix_rfl
    · split
      · exact ih
      · have hrecord : copies <+: recordCopy copies off target onController := by
          rw [recordCopy]
          split
          · exact List.prefix_append _ _
          · exact List.prefix_rfl
        exact hrecord.trans ih

/-- Marking a slot again adds copies to its table and changes nothing else of its snapshot. -/
theorem grew_applyNativeVoteMarkers {client : Ptr} {controller : Option Ptr} :
    x.Grew (applyNativeVoteMarkers w x client controller).1 := by
  have hscan : ∀ onController nbytes copies m,
      copies <+: (scanRegion x.sscSteamId onController nbytes copies m).1 := by
    intro onController nbytes copies m
    rw [scanRegion]
    exact prefix_scanFrom
  rw [applyNativeVoteMarkers]
  dsimp only
  rw [scanAndZeroSteamIdCopies]
  split
  · exact .refl
  · dsimp only
    cases controller with
    | none => exact ⟨rfl, hscan _ _ _ _⟩
    | some c => exact ⟨rfl, (hscan _ _ _ _).trans (hscan _ _ _ _)⟩

/-- A captured slot was captured in `v`, and its record has only grown since. -/
def CapturedIn (v : Vote) (t : Int) (x : VoteSlotSnapshot) : Prop :=
  x.captured = true → (v.snapshots t).Grew x

theorem capturedIn_rule : SnapshotRule (CapturedIn v) where
  empty t h := by cases h
  marked w t x client controller h hcaptured := by
    have hgrew := @grew_applyNativeVoteMarkers w x client controller
    rw [hgrew.same] at hcaptured
    exact (h hcaptured).trans hgrew
  dropped t x _ h := by cases h

/-- A captured snapshot is filed under its own slot. -/
def Filed (t : Int) (x : VoteSlotSnapshot) : Prop :=
  x.captured = true → x.slot = t ∧ 0 ≤ t ∧ t < kMaxSlots

theorem filed_rule : SnapshotRule Filed where
  empty t h := by cases h
  marked w t x client controller h hcaptured := by
    obtain ⟨copies, hmarked⟩ := @snapshot_applyNativeVoteMarkers w client x controller
    rw [hmarked] at hcaptured ⊢
    exact h hcaptured
  dropped t x _ h := by cases h

theorem filed_taken (w : World) (slot : Int) (client : Ptr) (h0 : 0 ≤ slot) (h1 : slot < kMaxSlots) :
    Filed slot (takeSnapshot w slot client) := fun _ => ⟨takeSnapshot_spec.2.1, h0, h1⟩

/-- Snapshots are filed, and none is captured once they are no longer valid. -/
structure Vote.Sealed (v : Vote) : Prop where
  filed : v.All Filed
  valid : v.valid = false → ∀ t, (v.snapshots t).captured = false

theorem not_captured_restoreSlot {a : Vote × World} :
    ((restoreSlot ids a t).1.snapshots t).captured = false := by
  rw [restoreSlot]
  dsimp only
  split
  · rename_i h
    simpa using h
  · have hdropped : ((a.1.setSnapshot t { a.1.snapshots t with captured := false }).snapshots t).captured =
        false := by rw [setSnapshot_self]
    repeat' split
    all_goals exact hdropped

/-- A pass for another slot does not bring a snapshot back. -/
theorem not_captured_restoreSlot_of {a : Vote × World} (h : (a.1.snapshots s).captured = false) :
    ((restoreSlot ids a t).1.snapshots s).captured = false := by
  by_cases hst : s = t
  · subst hst
    exact not_captured_restoreSlot
  · rw [restoreSlot]
    dsimp only
    have hother : ∀ x, ((a.1.setSnapshot t x).snapshots s).captured = false := by
      intro x
      rw [Vote.setSnapshot]
      dsimp only
      rwa [Function.update_of_ne hst]
    repeat' split
    all_goals first | exact h | exact hother _

theorem sealed_rule : VoteRule Vote.Sealed where
  reset := ⟨filed_rule.empty, fun _ _ => rfl⟩
  counted _ _ _ _ h := ⟨h.filed, h.valid⟩
  reasserted ids v w hvalid h := by
    refine ⟨filed_rule.voteRule.reasserted ids v w hvalid h.filed, fun hinvalid => ?_⟩
    have hkept : (forSlots (reassertSlot ids) (v, w)).1.valid = v.valid := by
      refine forSlots_invariant (I := fun a : Vote × World => a.1.valid = v.valid) (fun a t ha => ?_) rfl
      rw [← ha, reassertSlot]
      dsimp only
      repeat' split
      all_goals rfl
    rw [hkept, hvalid] at hinvalid
    cases hinvalid
  restored ids v w hvalid h := by
    have hfiled := filed_rule.voteRule.restored ids v w hvalid h.filed
    refine ⟨hfiled, fun _ t => ?_⟩
    by_contra hcaptured
    rw [Bool.not_eq_false] at hcaptured
    obtain ⟨-, h0, h1⟩ := hfiled t hcaptured
    have hdropped :
        ((forSlots (restoreSlot ids) ({ v with valid := false }, w)).1.snapshots t).captured = false :=
      forSlots_establishes (P := fun t (a : Vote × World) => (a.1.snapshots t).captured = false)
        (fun _ _ => not_captured_restoreSlot) (fun _ _ _ => not_captured_restoreSlot_of) h0 h1
    rw [hdropped] at hcaptured
    cases hcaptured
  resetSlot v s h := by
    refine ⟨filed_rule.voteRule.resetSlot v s h.filed, fun hvalid t => ?_⟩
    rw [resetVoteTransactionSlot] at hvalid ⊢
    split
    · rename_i hrange
      rw [if_pos hrange] at hvalid
      exact h.valid hvalid t
    · rename_i hrange
      rw [if_neg hrange] at hvalid
      split
      · rename_i hcaptured
        rw [if_pos hcaptured] at hvalid
        exact h.valid hvalid t
      · rename_i hcaptured
        rw [if_neg hcaptured] at hvalid
        have hnone := h.valid hvalid s
        simp [hnone] at hcaptured

theorem sealed_opening : OpeningRule Vote.Sealed where
  everyone ids v w := by
    refine ⟨(filed_rule.openingRule filed_taken).everyone ids v w, fun h => ?_⟩
    rw [captureManagedSlots] at h
    cases h
  one ids v w s := by
    refine ⟨(filed_rule.openingRule filed_taken).one ids v w s, fun hfailed t => ?_⟩
    dsimp only at hfailed ⊢
    have hcleared : ∀ x : VoteSlotSnapshot, x = {} →
        ((v.clearSnapshots.setSnapshot s x).snapshots t).captured = false := by
      rintro _ rfl
      rw [Vote.setSnapshot]
      dsimp only
      by_cases hts : t = s
      · rw [hts, Function.update_self]
      · rw [Function.update_of_ne hts]
        rfl
    rw [captureOneManagedSlot] at hfailed ⊢
    split
    · rfl
    · rename_i hrange
      rw [if_neg hrange] at hfailed
      dsimp only at hfailed ⊢
      split
      · exact hcleared _ rfl
      · rename_i hm
        rw [if_neg hm] at hfailed
        split
        · exact hcleared _ rfl
        · rename_i client hp
          rw [hp] at hfailed
          cases hfailed

/-- Zeroing the copies of a SteamID64 in a client also zeroes its `m_bFakePlayer`. -/
def CopyHitsFakePlayer (sid : UInt64) (m : Mem) : Prop :=
  sid ≠ 0 ∧ Covers (steamIdHits sid kSscScanBytes (setFakePlayer m)) offFakePlayer

/-- A client marked under its snapshot, whatever it held before. -/
theorem native_marked {controller : Option Ptr} :
    Native ((applyNativeVoteMarkers w x p controller).2.client p) ↔
      ¬ CopyHitsFakePlayer x.sscSteamId (w.client p) := by
  have hfields : ∀ m : Mem, readLE (writeSteamId m 0) offSteamID 8 = 0 ∧
      readLE (writeSteamId m 0) offSteamIDMirror 8 = 0 := fun m => readLE_writeSteamId
  rw [client_applyNativeVoteMarkers, Native, and_iff_left (hfields _), writeSteamId_out (by decide),
    CopyHitsFakePlayer]
  by_cases h0 : x.sscSteamId = 0
  · simp [h0]
  · rw [if_neg h0, scanRegion_mem, setFakePlayer_fakePlayer]
    simp [h0]

/-- The pass for a captured slot marks its client. -/
theorem native_reassertSlot (hcaptured : (v.snapshots t).captured = true)
    (hslot : (v.snapshots t).slot = t) (hm : ids.isManaged t = true)
    (hp : w.resolveClientBySlot t = some p) (hclient : (v.snapshots t).client = some p) :
    Native ((reassertSlot ids (v, w) t).2.client p) ↔
      ¬ CopyHitsFakePlayer (v.snapshots t).sscSteamId (w.client p) := by
  simp only [reassertSlot, hcaptured, hslot, hm, hp, hclient, Bool.not_true, Bool.false_eq_true,
    or_self, if_false, ne_eq, not_true]
  exact native_marked

/-- A hold frame marks the client of every captured slot, whatever has become of it since the last. -/
theorem native_reassert (hv : v.Sealed) (hcaptured : (v.snapshots t).captured = true)
    (hm : ids.isManaged t = true) (hp : w.resolveClientBySlot t = some p)
    (hclient : (v.snapshots t).client = some p) :
    Native ((reassertNativeVoteMarkers ids v w).2.client p) ↔
      ¬ CopyHitsFakePlayer (v.snapshots t).sscSteamId (w.client p) := by
  have hvalid : v.valid = true := by
    by_contra hinvalid
    rw [hv.valid (by simpa using hinvalid) t] at hcaptured
    cases hcaptured
  obtain ⟨hslot, h0, h1⟩ := hv.filed t hcaptured
  -- a pass for another slot leaves this one's client and snapshot alone
  have hother : ∀ (a : Vote × World) (u : Int), u ≠ t → a.1.All Filed → w.OnlyMemory a.2 →
      (reassertSlot ids a u).1.All Filed ∧ w.OnlyMemory (reassertSlot ids a u).2 ∧
        (reassertSlot ids a u).1.snapshots t = a.1.snapshots t ∧
        (reassertSlot ids a u).2.client p = a.2.client p := by
    rintro ⟨v', w'⟩ u hut hfiled hmem
    refine ⟨all_reassertSlot filed_rule hfiled, ?_⟩
    simp only [reassertSlot]
    split
    · exact ⟨hmem, rfl, rfl⟩
    · rename_i hcu
      rw [not_or, Bool.not_eq_true', Bool.not_eq_false] at hcu
      split
      · exact ⟨hmem, rfl, rfl⟩
      · rename_i client hq
        split
        · exact ⟨hmem, rfl, rfl⟩
        · have honly := onlyClient_applyNativeVoteMarkers w' client (v'.snapshots u)
            (snapshotControllerLive w' (v'.snapshots u) client)
          refine ⟨hmem.trans honly.1, ?_, honly.2 p ?_⟩
          · rw [Vote.setSnapshot]
            exact Function.update_of_ne (Ne.symm hut) _ _
          · rintro rfl
            rw [(hfiled u hcu.1).1, hmem.resolveClientBySlot] at hq
            exact hut (resolveClientBySlot_inj hq hp)
  rw [reassertNativeVoteMarkers, if_neg (by simp [hvalid])]
  refine (forSlots_at (reassertSlot ids)
    (J := fun a : Vote × World => a.1.All Filed ∧ w.OnlyMemory a.2 ∧
      a.1.snapshots t = v.snapshots t ∧ a.2.client p = w.client p)
    (Q := fun a : Vote × World => a.1.All Filed ∧ w.OnlyMemory a.2 ∧
      (Native (a.2.client p) ↔ ¬ CopyHitsFakePlayer (v.snapshots t).sscSteamId (w.client p)))
    h0 h1 ?_ ?_ ?_ ⟨hv.filed, .refl, rfl, rfl⟩).2.2
  · rintro a u hut ⟨hfiled, hmem, hsnap, hkept⟩
    obtain ⟨hfiled', hmem', hsnap', hkept'⟩ := hother a u hut hfiled hmem
    exact ⟨hfiled', hmem', hsnap'.trans hsnap, hkept'.trans hkept⟩
  · rintro ⟨v', w'⟩ ⟨hfiled, hmem, hsnap, hkept⟩
    dsimp only at hsnap hkept hmem
    refine ⟨all_reassertSlot filed_rule hfiled, hmem.trans ?_, ?_⟩
    · exact (reassertSlot_frame fun h => (hfiled t h).1).2.2.2.1
    · rw [← hsnap, ← hkept]
      rw [← hsnap] at hcaptured hslot hclient
      exact native_reassertSlot hcaptured hslot hm (hmem.resolveClientBySlot.trans hp) hclient
  · rintro a u hut ⟨hfiled, hmem, hnative⟩
    obtain ⟨hfiled', hmem', -, hkept'⟩ := hother a u hut hfiled hmem
    exact ⟨hfiled', hmem', by rwa [hkept']⟩

/-- A hold frame lets go of nobody. -/
theorem captured_reassert (hv : v.Sealed) (hcaptured : (v.snapshots t).captured = true) :
    ((reassertNativeVoteMarkers ids v w).1.snapshots t).captured = true := by
  rw [reassertNativeVoteMarkers]
  split
  · exact hcaptured
  · refine (forSlots_invariant (I := fun a : Vote × World =>
      a.1.All Filed ∧ (a.1.snapshots t).captured = true) ?_ ⟨hv.filed, hcaptured⟩).2
    rintro ⟨v', w'⟩ u ⟨hfiled, hkept⟩
    refine ⟨all_reassertSlot filed_rule hfiled, ?_⟩
    obtain ⟨copies, hsnap⟩ := (@reassertSlot_frame ids v' w' u fun h => (hfiled u h).1).1 t
    rw [hsnap]
    exact hkept

/-- A tick that leaves the window open on a live server marks again. -/
theorem tickVoteTransaction_held (hscheduled : st.vote.endScheduled = true)
    (halive : st.world.serverAlive = true) (hactive : (tickVoteTransaction st).vote.active = true) :
    (tickVoteTransaction st).world = (reassertNativeVoteMarkers st.ids st.vote st.world).2 ∧
      (tickVoteTransaction st).vote.snapshots =
        (reassertNativeVoteMarkers st.ids st.vote st.world).1.snapshots := by
  by_cases hhold : 1 < st.vote.holdFramesRemaining
  · simp [tickVoteTransaction, hscheduled, halive, hhold]
  · have hclosed : tickVoteTransaction st = closeVoteTransaction st := by
      simp [tickVoteTransaction, hscheduled, halive, hhold]
    have hdepth : (closeVoteTransaction st).clock.depth = 0 := by
      rw [clock_closeVoteTransaction]
      rfl
    rw [hclosed, active_eq, hdepth] at hactive
    cases hactive

/-- So does a frame: after its tick nothing writes a marker. -/
theorem gameFrame_held (hv : st.vote.Sealed)
    (hscheduled : st.vote.endScheduled = true) (halive : st.world.serverAlive = true)
    (hhosted : (gameFrame E st nowSec).gate.suspended = false)
    (hactive : (gameFrame E st nowSec).vote.active = true)
    (hcaptured : (st.vote.snapshots t).captured = true) :
    ((gameFrame E st nowSec).vote.snapshots t).captured = true ∧
      (E.KeepsClients → st.ids.isManaged t = true → ∀ p, st.world.resolveClientBySlot t = some p →
        (st.vote.snapshots t).client = some p →
        (Native ((gameFrame E st nowSec).world.client p) ↔
          ¬ CopyHitsFakePlayer (st.vote.snapshots t).sscSteamId (st.world.client p))) := by
  have hgate : (pollMapGate st).gate.suspended = false := by
    rw [← sameSettings_gameFrame.1.1]
    exact hhosted
  rw [gameFrame] at hactive ⊢
  dsimp only at hactive ⊢
  rw [if_neg (by simp [hgate])] at hactive ⊢
  rw [vote_jitterPings] at hactive ⊢
  rw [world_jitterPings]
  dsimp only at hactive ⊢
  obtain ⟨gate, hpoll⟩ | ⟨-, hpoll⟩ := @pollMapGate_cases st
  · rw [hpoll] at hactive ⊢
    obtain ⟨hworld, hsnapshots⟩ :=
      @tickVoteTransaction_held { st with gate := gate } hscheduled halive hactive
    rw [hsnapshots, hworld]
    refine ⟨captured_reassert hv hcaptured, fun hE hm p hp hclient => ?_⟩
    rw [← native_reassert hv hcaptured hm hp hclient]
    apply native_congr
    intro a ha
    exact (writesWithin_drainPendingControllerRemovals (M := fun _ => False) hE).keeps p
      (fun _ hf => hf.elim) a ha
  · rw [hpoll] at hgate
    cases hgate

/-- As long as a window stays open, over any hooks, only slots that it had captured before are captured,
each with the client and the SteamID64 it was captured with and no copy forgotten; and each frame of the
hold keeps them captured and, where the engine leaves the markers alone meanwhile, gives every captured
slot whose client is still that one the native markers again, whatever has been written to it since,
unless the SteamID64 happens to stand in its fake-player byte. -/
theorem held_window_marks_again {features : PluginFeatures} {mapBlacklist : List Bytes}
    {pool : LoadedPool} {mapped : Bool} {draws : Nat → Nat} {w₀ : World}
    (hst : st = run (step E) (load features mapBlacklist pool mapped draws w₀) es)
    (hopen : Guarded (step E) (fun st _ => st.vote.active = true) st fs) :
    let held := run (step E) st fs
    (∀ t, (held.vote.snapshots t).captured = true →
      (st.vote.snapshots t).Grew (held.vote.snapshots t)) ∧
    ∀ w nowSec, w.serverAlive = true → held.vote.endScheduled = true →
      let frame := step E held ⟨w, .gameFrame nowSec⟩
      frame.vote.active = true →
      ∀ t, (held.vote.snapshots t).captured = true →
        (frame.vote.snapshots t).captured = true ∧
          (E.KeepsClients → held.ids.isManaged t = true → ∀ p, w.resolveClientBySlot t = some p →
            (st.vote.snapshots t).client = some p →
            (Native (frame.world.client p) ↔
              ¬ CopyHitsFakePlayer (st.vote.snapshots t).sscSteamId (w.client p))) := by
  have hload : (load features mapBlacklist pool mapped draws w₀).vote.Sealed :=
    sealed_rule.pollMapGate ⟨filed_rule.empty, fun _ _ => rfl⟩
  have hsealed : st.vote.Sealed := by
    rw [hst]
    exact sealed_rule.run sealed_opening hload
  have hheld : (run (step E) st fs).vote.All (CapturedIn st.vote) :=
    capturedIn_rule.voteRule.run_of_active hopen fun t _ => .refl
  intro held
  refine ⟨hheld, fun w nowSec halive hscheduled => ?_⟩
  intro frame hactive t hcaptured
  have hhosted : frame.gate.suspended = false := by
    by_contra hsuspended
    rw [Bool.not_eq_false, ← clock_suspended] at hsuspended
    have hmuted : frame.clock.Muted := by
      have hrun : frame = run (step E) (load features mapBlacklist pool mapped draws w₀)
          (es ++ fs ++ [⟨w, .gameFrame nowSec⟩]) := by
        rw [run_append, run_append, ← hst]
        rfl
      rw [hrun]
      exact muted_run
    have hdepth := (hmuted hsuspended).1
    rw [active_eq, hdepth] at hactive
    cases hactive
  have hv : held.vote.Sealed := sealed_rule.run sealed_opening hsealed
  obtain ⟨hkept, hmarked⟩ := @gameFrame_held E (held.withWorld w) t nowSec hv hscheduled halive
    hhosted hactive hcaptured
  refine ⟨hkept, fun hE hm p hp hclient => ?_⟩
  -- the snapshot is the one of `st`, up to its table
  have hsame := (hheld t hcaptured).same
  have hclient' : (held.vote.snapshots t).client = some p := by rw [hsame]; exact hclient
  have hsid : (held.vote.snapshots t).sscSteamId = (st.vote.snapshots t).sscSteamId := by rw [hsame]
  rw [← hsid]
  exact hmarked hE hm p hp hclient'

/-- A bot connects, and a vote is called. -/
def voteHeldRun : List Event :=
  [onSolo (.onClientConnected 0 none 0 true), onSolo (.dispatchConCommandPre (some (ascii "callvote")) []),
    onSolo (.dispatchConCommandPost (some (ascii "callvote")) [])]

theorem held_window_marks_again_after_vote :
    let held := run (step .idle) (run (step .idle) soloLoad voteHeldRun) [onSolo (.gameFrame 0)]
    Native ((step .idle held (onSolo (.gameFrame 0))).world.client 100) := by
  intro held
  have hopen : Guarded (step .idle) (fun st _ => st.vote.active = true)
      (run (step .idle) soloLoad voteHeldRun) [onSolo (.gameFrame 0)] :=
    ⟨by decide +kernel, trivial⟩
  have hmarked := ((held_window_marks_again rfl hopen).2 (World.ofClients [100] nodup_solo) 0 rfl
    (by decide +kernel) (by decide +kernel) 0 (by decide +kernel)).2
    EngineCalls.keepsClients_idle (by decide +kernel) 100 rfl (by decide +kernel)
  exact hmarked.mpr fun h => h.1 (by decide +kernel)

end Botid
