import Botid.Exposure

/-! Closing the identity window leaves no managed bot exposed, as long as its snapshots can do so. -/
namespace Botid

open Machine ByteMem World

variable {E : EngineCalls} {st st' : State} {ids : Identities} {v : Vote} {w w' : World}
  {s t : Int} {p : Ptr} {sid : UInt64} {a : Nat} {pending : Prop} {snapshot : VoteSlotSnapshot}
  {m : Mem}

/-- Recorded copies that overlap the marker bytes of a client hold what the disguise writes there. -/
def CopiesAgree (sid : UInt64) (copies : List SteamIdCopy) : Prop :=
  ∀ copy ∈ copies, copy.onController = false → ∀ a, Marker a → copy.offset ≤ a →
    a < copy.offset + 8 →
      writeLE (fun _ => 0) copy.offset 8 copy.value.toNat a = writeSteamId (fun _ => 0) sid a

/-- The disguise is these marker bytes. -/
theorem disguised_of_markers (h : ∀ a, Marker a → m a = writeSteamId (fun _ => 0) sid a) :
    Disguised m sid := by
  rw [disguised_congr h]
  refine ⟨?_, readLE_writeSteamId⟩
  rw [writeSteamId_out (by decide)]

theorem writeSteamId_marker (h : m offFakePlayer = 0) (ha : Marker a) :
    writeSteamId m sid a = writeSteamId (fun _ => 0) sid a := by
  rcases ha with rfl | ⟨h1, h2⟩
  · rw [writeSteamId_out (by decide), writeSteamId_out (by decide), h]
  · have hid : offSteamID = 171 := rfl
    have hmirror : offSteamIDMirror = 179 := rfl
    by_cases hm : offSteamIDMirror ≤ a
    · rw [writeSteamId, writeSteamId, writeLE_in hm h2, writeLE_in hm h2]
    · have hbefore : ∀ m : Mem, writeSteamId m sid a = UInt8.ofNat (sid.toNat / 256 ^ (a - offSteamID)) :=
        fun m => (writeLE_out (by omega)).trans (writeLE_in h1 (by omega))
      rw [hbefore, hbefore]

/-- The replay of a snapshot whose copies agree puts its disguise back. -/
theorem disguised_replayDisguise (h : CopiesAgree snapshot.sscSteamId snapshot.copies) :
    Disguised ((replayDisguise w snapshot p).client p) snapshot.sscSteamId := by
  apply disguised_of_markers
  rw [replayDisguise]
  apply Machine.run_invariant (I := fun w' : World =>
    ∀ a, Marker a → w'.client p a = writeSteamId (fun _ => 0) snapshot.sscSteamId a)
  · intro w' copy hcopy hw' a ha
    rw [restoreCopy]
    split
    · split
      · exact hw' a ha
      · rw [client_onLiveController]
        exact hw' a ha
    · rename_i hctl
      split
      · exact hw' a ha
      · rw [client_onClient_self]
        by_cases hin : copy.offset ≤ a ∧ a < copy.offset + 8
        · rw [← h copy hcopy (by simpa using hctl) a ha hin.1 hin.2, writeLE_in hin.1 hin.2,
            writeLE_in hin.1 hin.2]
        · rw [writeLE_out (by omega)]
          exact hw' a ha
  · exact Machine.guarded_of_forall fun copy hcopy _ => hcopy
  · intro a ha
    rw [client_onLiveController, client_onClient_self]
    exact writeSteamId_marker clearFakePlayer_fakePlayer ha

/-- One pass of the restore loop, for a snapshot that names its own slot. -/
theorem restoreSlot_frame (ids : Identities)
    (hslot : (v.snapshots t).captured = true → (v.snapshots t).slot = t) :
    (∀ u, u ≠ t → (restoreSlot ids (v, w) t).1.snapshots u = v.snapshots u) ∧
      ((restoreSlot ids (v, w) t).1.snapshots t).captured = false ∧
      (restoreSlot ids (v, w) t).1.depth = v.depth ∧
      (restoreSlot ids (v, w) t).1.valid = v.valid ∧
      w.OnlyMemory (restoreSlot ids (v, w) t).2 ∧
      World.Untouched (· ≠ t) w (restoreSlot ids (v, w) t).2 := by
  unfold restoreSlot
  dsimp only
  split
  · rename_i hc
    exact ⟨fun _ _ => rfl, by simpa using hc, rfl, rfl, .refl, .refl⟩
  · rename_i hc
    have hc : (v.snapshots t).captured = true := by simpa using hc
    have hset : (∀ u, u ≠ t →
        (v.setSnapshot t { v.snapshots t with captured := false }).snapshots u = v.snapshots u) ∧
        ((v.setSnapshot t { v.snapshots t with captured := false }).snapshots t).captured = false :=
      ⟨fun u hu => by simp [Vote.setSnapshot, hu], by simp [Vote.setSnapshot]⟩
    split
    · exact ⟨hset.1, hset.2, rfl, rfl, .refl, .refl⟩
    · split
      · exact ⟨hset.1, hset.2, rfl, rfl, .refl, .refl⟩
      · rename_i client hres
        split
        · exact ⟨hset.1, hset.2, rfl, rfl, .refl, .refl⟩
        · rw [hslot hc] at hres
          exact ⟨hset.1, hset.2, rfl, rfl, onlyClient_replayDisguise.1,
            onlyClient_replayDisguise.untouched hres⟩

/-- One pass puts the slot's own disguise back. -/
theorem slotSafe_restoreSlot (h : SlotSafe pending ids v w s)
    (hagree : (v.snapshots s).captured = true →
      CopiesAgree (v.snapshots s).sscSteamId (v.snapshots s).copies) :
    SlotSafe pending ids (restoreSlot ids (v, w) s).1 (restoreSlot ids (v, w) s).2 s := by
  intro b hb
  obtain ⟨hcap, hun⟩ := h b hb
  cases hc : (v.snapshots s).captured with
  | false =>
    have hsame : restoreSlot ids (v, w) s = (v, w) := by simp [restoreSlot, hc]
    rw [hsame]
    exact ⟨hcap, hun⟩
  | true =>
    obtain ⟨ha, hsid, hslot, hclient⟩ := hcap hc
    obtain ⟨-, hfalse, -, -, hmem, -⟩ := restoreSlot_frame ids (w := w) (t := s)
      fun _ => hslot
    refine ⟨fun h => by simp [hfalse] at h, fun _ p hp => ⟨fun _ => ?_, fun hna => ?_⟩⟩
    · rw [hmem.resolveClientBySlot] at hp
      obtain ⟨i, hold, -⟩ := Identities.holds_of_getIdentity hb
      have hreplay : restoreSlot ids (v, w) s =
          (v.setSnapshot s { v.snapshots s with captured := false },
            replayDisguise w (v.snapshots s) p) := by
        simp [restoreSlot, hc, hslot, hold.isManaged, hp, hclient]
      rw [hreplay, ← hsid]
      exact disguised_replayDisguise (hagree hc)
    · simp [ha] at hna

theorem Safe.snapshot_slot (h : Safe pending st) (hc : (st.vote.snapshots s).captured = true) :
    (st.vote.snapshots s).slot = s := by
  obtain ⟨i, b, -, -, hb⟩ := h.identity_of_managed (h.window s hc).2.2
  exact ((h.slot s b hb).1 hc).2.2.1

/-- The window's end is prepared: either its snapshots are valid or no disguise is pending, and what
they recorded agrees with the disguise. -/
def ClosesWell (st : State) : Prop :=
  (st.vote.valid = true ∨ ∀ s p b, st.ids.getIdentity s = some b →
    st.world.resolveClientBySlot s = some p → b.applied = true) ∧
  ∀ s, 0 ≤ s → s < kMaxSlots → (st.vote.snapshots s).captured = true →
    CopiesAgree (st.vote.snapshots s).sscSteamId (st.vote.snapshots s).copies

/-- What the restore loop keeps: the slots still captured are among those of before. -/
structure Restoring (v : Vote) (w : World) (z : Vote × World) : Prop where
  depth : z.1.depth = v.depth
  mem : w.OnlyMemory z.2
  snapshots : ∀ t, (z.1.snapshots t).captured = true → z.1.snapshots t = v.snapshots t

theorem Restoring.refl : Restoring v w (v, w) := ⟨rfl, .refl, fun _ _ => rfl⟩

section

variable {z : Vote × World} (hv : ∀ t, (v.snapshots t).captured = true → (v.snapshots t).slot = t)

include hv

theorem Restoring.slot (h : Restoring v w z) (hc : (z.1.snapshots t).captured = true) :
    (z.1.snapshots t).slot = t := by
  have hsame := h.snapshots t hc
  rw [hsame] at hc ⊢
  exact hv t hc

theorem Restoring.pass (h : Restoring v w z) : Restoring v w (restoreSlot ids z t) := by
  obtain ⟨hother, hself, hdepth, -, hmem, -⟩ := restoreSlot_frame ids (v := z.1) (w := z.2)
    fun hc => h.slot hv (t := t) hc
  refine ⟨hdepth.trans h.depth, h.mem.trans hmem, fun u hu => ?_⟩
  by_cases hut : u = t
  · subst hut
    simp [hself] at hu
  · rw [hother u hut] at hu ⊢
    exact h.snapshots u hu

/-- A pass for another slot leaves this one's snapshot and memory alone. -/
theorem Restoring.untouched (ids : Identities) (h : Restoring v w z) (hts : t ≠ s) :
    (restoreSlot ids z t).1.snapshots s = z.1.snapshots s ∧
      World.Untouched (· = s) z.2 (restoreSlot ids z t).2 := by
  obtain ⟨hother, -, -, -, -, hun⟩ := restoreSlot_frame ids (v := z.1) (w := z.2)
    fun hc => h.slot hv (t := t) hc
  refine ⟨hother s (Ne.symm hts), hun.mono ?_⟩
  rintro u rfl
  exact Ne.symm hts

/-- The pass of a slot, among those of the others. -/
theorem slotSafe_restoreLoop_at (hs : 0 ≤ s ∧ s < kMaxSlots) (h : SlotSafe pending ids v w s)
    (hagree : (v.snapshots s).captured = true →
      CopiesAgree (v.snapshots s).sscSteamId (v.snapshots s).copies) :
    let y := forSlots (restoreSlot ids) (v, w)
    (y.1.snapshots s).captured = false ∧ SlotSafe pending ids y.1 y.2 s := by
  intro y
  have hat := forSlots_at (restoreSlot ids) (x := (v, w))
    (J := fun z => Restoring v w z ∧ z.1.snapshots s = v.snapshots s ∧ World.Untouched (· = s) w z.2)
    (Q := fun z => Restoring v w z ∧ (z.1.snapshots s).captured = false ∧
      SlotSafe pending ids z.1 z.2 s) hs.1 hs.2 ?_ ?_ ?_ ⟨.refl, rfl, .refl⟩
  · exact hat.2
  · rintro z t hts ⟨hz, hsnap, hun⟩
    obtain ⟨hother, hw⟩ := hz.untouched hv ids hts
    exact ⟨hz.pass hv, hother.trans hsnap, hun.trans hw⟩
  · rintro ⟨v', w'⟩ ⟨hz, hsnap, hun⟩
    refine ⟨hz.pass hv, (restoreSlot_frame ids fun hc => hz.slot hv hc).2.1, ?_⟩
    refine slotSafe_restoreSlot (h.frame rfl hsnap id hun) fun hc => ?_
    rw [hsnap] at hc ⊢
    exact hagree hc
  · rintro z t hts ⟨hz, hcap, hsafe⟩
    obtain ⟨hother, hw⟩ := hz.untouched hv ids hts
    exact ⟨hz.pass hv, by rw [hother, hcap], hsafe.frame rfl hother id hw⟩

end

/-- The restore loop leaves no slot captured, and every slot safe. -/
theorem slotSafe_restoreLoop (hv : ∀ t, (v.snapshots t).captured = true → (v.snapshots t).slot = t ∧
      ids.isManaged t = true)
    (h : ∀ t, SlotSafe pending ids v w t)
    (hagree : ∀ t, (v.snapshots t).captured = true →
      CopiesAgree (v.snapshots t).sscSteamId (v.snapshots t).copies) :
    let y := forSlots (restoreSlot ids) (v, w)
    y.1.depth = v.depth ∧ w.OnlyMemory y.2 ∧ (∀ t, (y.1.snapshots t).captured = false) ∧
      ∀ t, SlotSafe pending ids y.1 y.2 t := by
  intro y
  have hslots : ∀ t, (v.snapshots t).captured = true → (v.snapshots t).slot = t := fun t hc => (hv t hc).1
  obtain ⟨hdepth, hmem, hsub⟩ : Restoring v w y :=
    forSlots_invariant (fun _ _ hz => hz.pass hslots) .refl
  have hslot : ∀ t, ids.isManaged t = true →
      (y.1.snapshots t).captured = false ∧ SlotSafe pending ids y.1 y.2 t :=
    fun t hm => slotSafe_restoreLoop_at hslots (Identities.range_of_isManaged hm) (h t) (hagree t)
  refine ⟨hdepth, hmem, fun t => ?_, fun t => ?_⟩
  · cases hm : ids.isManaged t with
    | true => exact (hslot t hm).1
    | false =>
      by_contra hc
      have hc : (y.1.snapshots t).captured = true := by simpa using hc
      rw [hsub t hc] at hc
      simp [(hv t hc).2] at hm
  · cases hm : ids.isManaged t with
    | true => exact (hslot t hm).2
    | false => exact slotSafe_of_not_managed hm

/-- A window that closes well leaves nothing pending and every slot disguised. -/
theorem Safe.closeVoteTransaction (h : Safe pending st) (hg : st.gate.suspended = false)
    (hclose : ClosesWell st) : Safe False (closeVoteTransaction st) := by
  rw [Botid.closeVoteTransaction, restorePlayerIdentity]
  dsimp only
  cases hvalid : st.vote.valid with
  | false =>
    simp only [Bool.not_false, if_true]
    have hnone : ∀ s, (st.vote.snapshots s).captured = false := by
      intro s
      by_contra hc
      have := (h.window s (by simpa using hc)).1
      simp [hvalid] at this
    refine ⟨h.live, h.hosting, fun s hs => by simp [hnone s] at hs, fun s b hb => ?_⟩
    obtain ⟨-, hun⟩ := h.slot s b hb
    refine ⟨fun hc => by simp [hnone s] at hc, fun hc p hp => ⟨(hun hc p hp).1, fun hna => ?_⟩⟩
    have := (hclose.1.resolve_left (by simp [hvalid])) s p b hb hp
    simp [hna] at this
  | true =>
    simp only [Bool.not_true, Bool.false_eq_true, if_false]
    generalize hv₀ : ({ snapshots := st.vote.snapshots } : Vote) = v₀
    have hsnap : v₀.snapshots = st.vote.snapshots := by rw [← hv₀]
    have hdepth : v₀.depth = 0 := by rw [← hv₀]
    obtain ⟨hd, hmem, hcap, hsafe⟩ := slotSafe_restoreLoop (v := v₀) (w := st.world)
      (fun t ht => by
        rw [hsnap] at ht ⊢
        exact ⟨h.snapshot_slot ht, (h.window t ht).2.2⟩)
      (fun t => (h.slot t).frame rfl (by rw [hsnap]) (fun _ => trivial) .refl)
      (fun t ht => by
        rw [hsnap] at ht ⊢
        have hrange := Identities.range_of_isManaged (h.window t ht).2.2
        exact hclose.2 t hrange.1 hrange.2 ht)
    have hrestored : Safe True { st with
        vote := (forSlots (restoreSlot st.ids) (v₀, st.world)).1
        world := (forSlots (restoreSlot st.ids) (v₀, st.world)).2 } :=
      ⟨h.live, h.hosting, fun s hs => by simp [hcap s] at hs, hsafe⟩
    apply hrestored.applyPending hg
    simp [Vote.active, hd, hdepth]

/-- Marking a client adds copies to its snapshot and changes nothing else in it. -/
theorem snapshot_applyNativeVoteMarkers {controller : Option Ptr} :
    ∃ copies, (applyNativeVoteMarkers w snapshot p controller).1 =
      { snapshot with copies := copies } := by
  simp only [applyNativeVoteMarkers, scanAndZeroSteamIdCopies]
  split
  · exact ⟨_, rfl⟩
  · cases controller with
    | none => exact ⟨_, rfl⟩
    | some c => exact ⟨_, rfl⟩

theorem takeSnapshot_spec : (takeSnapshot w s p).captured = true ∧ (takeSnapshot w s p).slot = s ∧
    (takeSnapshot w s p).client = some p ∧
      (takeSnapshot w s p).sscSteamId = readSteamId (w.client p) := by
  simp only [takeSnapshot]
  split <;> exact ⟨rfl, rfl, rfl, rfl⟩

/-- One capture writes the slot's own snapshot and its own client. -/
theorem captureOneManagedSlot_frame (ids : Identities) (v : Vote) (w : World) (t : Int) :
    (∀ u, u ≠ t → (captureOneManagedSlot ids v w t).2.1.snapshots u = v.snapshots u) ∧
      (captureOneManagedSlot ids v w t).2.1.depth = v.depth ∧
      World.Untouched (· ≠ t) w (captureOneManagedSlot ids v w t).2.2 := by
  rw [captureOneManagedSlot]
  split
  · exact ⟨fun _ _ => rfl, rfl, .refl⟩
  · have hset : ∀ (v' : Vote) (snap : VoteSlotSnapshot) (u : Int), u ≠ t →
        (v'.setSnapshot t snap).snapshots u = v'.snapshots u :=
      fun v' snap u hu => by simp [Vote.setSnapshot, hu]
    dsimp only
    split
    · exact ⟨hset v _, rfl, .refl⟩
    · split
      · exact ⟨hset v _, rfl, .refl⟩
      · rename_i client hres
        exact ⟨fun u hu => (hset _ _ u hu).trans (hset v _ u hu), rfl,
          (onlyClient_applyNativeVoteMarkers _ _ _ _).untouched hres⟩

/-- Capturing a slot whose client shows its disguise. -/
theorem slotSafe_captureOneManagedSlot (hempty : (v.snapshots s).captured = false)
    (h : SlotSafe False ids v w s) :
    SlotSafe False ids (captureOneManagedSlot ids v w s).2.1 (captureOneManagedSlot ids v w s).2.2 s ∧
      (((captureOneManagedSlot ids v w s).2.1.snapshots s).captured = true →
        (captureOneManagedSlot ids v w s).1 = true ∧ ids.isManaged s = true) := by
  rw [captureOneManagedSlot]
  split
  · exact ⟨h, fun hc => by simp [hempty] at hc⟩
  · dsimp only
    split
    · rename_i hm
      refine ⟨slotSafe_of_not_managed (by simpa using hm), fun hc => ?_⟩
      simp [Vote.setSnapshot] at hc
    · rename_i hm
      split
      · rename_i hres
        refine ⟨fun b hb => ⟨fun hc => ?_, fun _ p hp => ?_⟩, fun hc => ?_⟩
        · simp [Vote.setSnapshot] at hc
        · simp [hres] at hp
        · simp [Vote.setSnapshot] at hc
      · rename_i client hres
        refine ⟨fun b hb => ?_, fun _ => ⟨rfl, by simpa using hm⟩⟩
        obtain ⟨-, hun⟩ := h b hb
        obtain ⟨happ, hpend⟩ := hun hempty client hres
        have ha : b.applied = true := by
          by_contra ha
          exact hpend (by simpa using ha)
        obtain ⟨copies, hcopies⟩ := snapshot_applyNativeVoteMarkers (w := w) (p := client)
        obtain ⟨hcap, hslot, hclient, hsid⟩ := takeSnapshot_spec (w := w) (s := s) (p := client)
        have hsnap : ∀ v' : Vote, (v'.setSnapshot s (applyNativeVoteMarkers w (takeSnapshot w s client)
            client (takeSnapshot w s client).controller).1).snapshots s =
              { takeSnapshot w s client with copies := copies } := by
          intro v'
          rw [hcopies]
          simp [Vote.setSnapshot]
        dsimp only
        rw [hsnap]
        refine ⟨fun _ => ⟨ha, ?_, hslot, ?_⟩, fun hc => by simp [hcap] at hc⟩
        · exact hsid.trans (readSteamId_eq_of_disguised (happ ha))
        · rw [(onlyClient_applyNativeVoteMarkers _ _ _ _).1.resolveClientBySlot, hres]
          exact hclient

/-- Outside a window nothing is captured, and nothing is pending. -/
theorem Safe.slotSafe_cleared (h : Safe (st.vote.depth ≠ 0) st) (hd : st.vote.depth = 0)
    (hsnap : (v.snapshots s).captured = false) : SlotSafe False st.ids v st.world s := by
  intro b hb
  obtain ⟨-, hun⟩ := h.slot s b hb
  refine ⟨fun hc => by simp [hsnap] at hc, fun _ p hp => ?_⟩
  obtain ⟨happ, hpend⟩ := hun (h.not_captured (by simp [Vote.active, hd])) p hp
  exact ⟨happ, fun hna => hpend hna hd⟩

/-- Opening a window for one slot, or nesting in an open one. -/
theorem Safe.beginVoteTransactionForSlot (h : Safe (st.vote.depth ≠ 0) st)
    (hwrap : st.vote.depth + 1 ≠ 0) :
    Safe ((beginVoteTransactionForSlot st s).vote.depth ≠ 0) (beginVoteTransactionForSlot st s) := by
  rw [Botid.beginVoteTransactionForSlot]
  dsimp only
  by_cases hd : st.vote.depth = 0
  · rw [if_pos hd]
    generalize hv : ({ st.vote with depth := st.vote.depth + 1 } : Vote).clearSnapshots = v₀
    have hempty : ∀ t, (v₀.snapshots t).captured = false := fun t => by rw [← hv]; rfl
    have hdepth : v₀.depth ≠ 0 := by rw [← hv]; exact hwrap
    obtain ⟨hother, hcd, hun⟩ := captureOneManagedSlot_frame st.ids v₀ st.world s
    obtain ⟨hsafe, hcap⟩ := slotSafe_captureOneManagedSlot (hempty s)
      (h.slotSafe_cleared (s := s) hd (hempty s))
    refine ⟨h.live, h.hosting, fun t ht => ?_, fun t => ?_⟩
    · dsimp only at ht ⊢
      by_cases hts : t = s
      · subst hts
        exact ⟨(hcap ht).1, by rw [hcd]; exact hdepth, (hcap ht).2⟩
      · rw [hother t hts, hempty t] at ht
        simp at ht
    · by_cases hts : t = s
      · subst hts
        exact hsafe.frame rfl rfl False.elim .refl
      · refine (h.slotSafe_cleared (s := t) hd (hempty t)).frame rfl (hother t hts) False.elim
          (hun.mono ?_)
        rintro u rfl
        exact hts
  · rw [if_neg hd]
    exact h.frame rfl rfl (fun _ => hwrap) rfl rfl (fun _ => hwrap) .refl

/-- The capture loop, from cleared snapshots. -/
theorem slotSafe_captureManagedSlots (h : Safe (st.vote.depth ≠ 0) st) (hd : st.vote.depth = 0) :
    let y := captureManagedSlots st.ids v st.world
    y.1.depth = v.depth ∧
      (∀ t, (y.1.snapshots t).captured = true → st.ids.isManaged t = true) ∧
      ∀ t, SlotSafe False st.ids y.1 y.2 t := by
  intro y
  let body := fun (z : Vote × World) (t : Int) =>
    if st.ids.isManaged t then (captureOneManagedSlot st.ids z.1 z.2 t).2 else z
  have hframe : ∀ (z : Vote × World) (t : Int),
      (∀ u, u ≠ t → (body z t).1.snapshots u = z.1.snapshots u) ∧ (body z t).1.depth = z.1.depth ∧
        World.Untouched (· ≠ t) z.2 (body z t).2 := by
    intro z t
    simp only [body]
    split
    · exact captureOneManagedSlot_frame _ _ _ _
    · exact ⟨fun _ _ => rfl, rfl, .refl⟩
  have hdepth : (forSlots body (v.clearSnapshots, st.world)).1.depth = v.depth :=
    forSlots_invariant (I := fun z : Vote × World => z.1.depth = v.depth)
      (fun z t hz => (hframe z t).2.1.trans hz) rfl
  have hmanaged : ∀ t,
      ((forSlots body (v.clearSnapshots, st.world)).1.snapshots t).captured = true →
      st.ids.isManaged t = true := by
    refine forSlots_invariant (I := fun z : Vote × World =>
      ∀ t, (z.1.snapshots t).captured = true → st.ids.isManaged t = true) ?_ ?_
    · intro z t hz u hu
      by_cases hut : u = t
      · subst hut
        by_contra hm
        simp only [body, if_neg hm] at hu
        exact hm (hz u hu)
      · rw [(hframe z t).1 u hut] at hu
        exact hz u hu
    · intro t ht
      simp [Vote.clearSnapshots] at ht
  refine ⟨hdepth, hmanaged, fun s => ?_⟩
  cases hm : st.ids.isManaged s with
  | false => exact slotSafe_of_not_managed hm
  | true =>
    have hrange := Identities.range_of_isManaged hm
    have hat := forSlots_at body (x := (v.clearSnapshots, st.world))
      (J := fun z => (z.1.snapshots s).captured = false ∧ World.Untouched (· = s) st.world z.2)
      (Q := fun z => SlotSafe False st.ids z.1 z.2 s) hrange.1 hrange.2 ?_ ?_ ?_ ⟨rfl, .refl⟩
    · exact hat.frame rfl rfl id .refl
    · rintro z t hts ⟨hempty, hun⟩
      obtain ⟨hother, -, hw⟩ := hframe z t
      refine ⟨by rw [hother s (Ne.symm hts), hempty], hun.trans (hw.mono ?_)⟩
      rintro u rfl
      exact Ne.symm hts
    · rintro z ⟨hempty, hun⟩
      simp only [body, if_pos hm]
      exact (slotSafe_captureOneManagedSlot hempty
        ((h.slotSafe_cleared hd hempty).frame rfl rfl id hun)).1
    · rintro z t hts hsafe
      obtain ⟨hother, -, hw⟩ := hframe z t
      refine hsafe.frame rfl (hother s (Ne.symm hts)) id (hw.mono ?_)
      rintro u rfl
      exact Ne.symm hts

/-- Opening a window for all slots, or nesting in an open one. -/
theorem Safe.beginVoteTransaction (h : Safe (st.vote.depth ≠ 0) st)
    (hwrap : st.vote.depth + 1 ≠ 0) :
    Safe ((beginVoteTransaction st).vote.depth ≠ 0) (beginVoteTransaction st) := by
  rw [Botid.beginVoteTransaction]
  dsimp only
  by_cases hd : st.vote.depth = 0
  · rw [if_pos hd]
    generalize hv : ({ st.vote with depth := st.vote.depth + 1 } : Vote) = v₀
    have hdepth : v₀.depth ≠ 0 := by rw [← hv]; exact hwrap
    obtain ⟨hcd, hmanaged, hsafe⟩ := slotSafe_captureManagedSlots (v := v₀) h hd
    refine ⟨h.live, h.hosting, fun t ht => ⟨rfl, by rw [hcd]; exact hdepth, hmanaged t ht⟩,
      fun t => (hsafe t).frame rfl rfl False.elim .refl⟩
  · rw [if_neg hd]
    exact h.frame rfl rfl (fun _ => hwrap) rfl rfl (fun _ => hwrap) .refl

/-- One pass of the reassert loop, for a snapshot that names its own slot. -/
theorem reassertSlot_frame (hslot : (v.snapshots t).captured = true → (v.snapshots t).slot = t) :
    (∀ u, ∃ copies, (reassertSlot ids (v, w) t).1.snapshots u =
        { v.snapshots u with copies := copies }) ∧
      (reassertSlot ids (v, w) t).1.depth = v.depth ∧
      (reassertSlot ids (v, w) t).1.valid = v.valid ∧
      w.OnlyMemory (reassertSlot ids (v, w) t).2 ∧
      ((v.snapshots t).captured = false → (reassertSlot ids (v, w) t).2 = w) ∧
      World.Untouched (· ≠ t) w (reassertSlot ids (v, w) t).2 := by
  have hsame : ∀ u, ∃ copies, v.snapshots u = { v.snapshots u with copies := copies } :=
    fun u => ⟨(v.snapshots u).copies, rfl⟩
  unfold reassertSlot
  dsimp only
  split
  · exact ⟨hsame, rfl, rfl, .refl, fun _ => rfl, .refl⟩
  · rename_i hc
    have hc : (v.snapshots t).captured = true := by simpa using (not_or.mp hc).1
    split
    · exact ⟨hsame, rfl, rfl, .refl, fun _ => rfl, .refl⟩
    · rename_i client hres
      split
      · exact ⟨hsame, rfl, rfl, .refl, fun _ => rfl, .refl⟩
      · rw [hslot hc] at hres
        refine ⟨fun u => ?_, rfl, rfl, (onlyClient_applyNativeVoteMarkers _ _ _ _).1,
          fun hfalse => by simp [hc] at hfalse, (onlyClient_applyNativeVoteMarkers _ _ _ _).untouched hres⟩
        by_cases hut : u = t
        · subst hut
          obtain ⟨copies, hcopies⟩ := snapshot_applyNativeVoteMarkers (w := w) (p := client)
          exact ⟨copies, by rw [hcopies]; simp [Vote.setSnapshot]⟩
        · exact ⟨(v.snapshots u).copies, by simp [Vote.setSnapshot, hut]⟩

/-- A hold frame keeps what is captured captured, and the others as they are. -/
theorem Safe.reassert (h : Safe pending st) :
    Safe pending { st with
      vote := (reassertNativeVoteMarkers st.ids st.vote st.world).1
      world := (reassertNativeVoteMarkers st.ids st.vote st.world).2 } := by
  rw [reassertNativeVoteMarkers]
  split
  · exact h
  · refine forSlots_invariant (I := fun z : Vote × World =>
      Safe pending { st with vote := z.1, world := z.2 }) ?_ h
    rintro ⟨v, w⟩ t hz
    obtain ⟨hsnap, hdepth, hvalid, hmem, hsame, hun⟩ := reassertSlot_frame (v := v)
      (w := w) (t := t) hz.snapshot_slot
    have hcaptured : ∀ u, ((reassertSlot st.ids (v, w) t).1.snapshots u).captured =
        (v.snapshots u).captured := by
      intro u
      obtain ⟨copies, hu⟩ := hsnap u
      rw [hu]
    refine ⟨h.live, h.hosting, fun u hu => ?_, fun u b hb => ?_⟩
    · rw [hcaptured u] at hu
      obtain ⟨hv, hd, hm⟩ := hz.window u hu
      exact ⟨hvalid.trans hv, hdepth ▸ hd, hm⟩
    · obtain ⟨hcap, hfree⟩ := hz.slot u b hb
      dsimp only at hcap hfree ⊢
      obtain ⟨copies, hu⟩ := hsnap u
      rw [hu, hmem.resolveClientBySlot]
      refine ⟨hcap, fun hc p hp => ?_⟩
      have hdis : Disguised ((reassertSlot st.ids (v, w) t).2.client p) b.steamId ↔
          Disguised (w.client p) b.steamId := by
        by_cases hut : u = t
        · subst hut
          rw [hsame hc]
        · exact disguised_congr (hun.markers u p hut hp)
      rw [hdis]
      exact hfree hc p hp

end Botid
