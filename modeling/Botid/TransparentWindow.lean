import Botid.PutInServer
import Botid.SparedSlot
import Botid.UndoneWindow

/-! The identity window over a disguised slot: when all that it does to memory is undone. -/
namespace Botid

open Machine ByteMem World SlotView

variable {st : State} {ids : Identities} {v : Vote} {w w' w₀ : World} {s t : Int} {p : Ptr}
  {oc controller : Option Ptr} {snapshot : VoteSlotSnapshot} {x : SlotView} {y y' : Vote × World}

theorem view_applyNativeVoteMarkers {sid : UInt64} {live : Bool} (hid : snapshot.sscSteamId = sid)
    (hsid : sid ≠ 0) (hlive : controller.isSome = live) (hcopies : snapshot.copies = x.copies)
    (hclient : w.client p = x.client) (hcontroller : ∀ c, controller = some c → w.controller c = x.controller) :
    (applyNativeVoteMarkers w snapshot p controller).1 =
        { snapshot with copies := (x.applyMarkers sid live).copies } ∧
      (applyNativeVoteMarkers w snapshot p controller).2.client p = (x.applyMarkers sid live).client ∧
      ∀ c, (applyNativeVoteMarkers w snapshot p controller).2.controller c =
        if controller = some c then (x.applyMarkers sid live).controller else w.controller c := by
  unfold applyNativeVoteMarkers scanAndZeroSteamIdCopies
  dsimp only
  rw [hid, if_neg hsid, SlotView.applyMarkers, hcopies, ← hclient, ← hlive]
  cases controller with
  | none => simp [onLiveController]
  | some c =>
    rw [← hcontroller c rfl]
    refine ⟨by simp [onLiveController], by simp [onLiveController], fun c' => ?_⟩
    by_cases hc : c = c'
    · subst hc
      simp [onLiveController]
    · have hne : c' ≠ c := Ne.symm hc
      simp [onLiveController, onController, hc, hne]

/-- The slot's controller would still be found under a client with this memory. -/
def World.findsController (w : World) (s : Int) (m : Mem) : Bool :=
  (w.controllerOf s).isSome && decide (w.resolveController (getEntityIndex m) = w.controllerOf s)

/-- The contents of the slot's controller, if it has one. -/
def World.controllerMem (w : World) (s : Int) : Mem := (w.controllerOf s).elim (fun _ => 0) w.controller

theorem finds_findsController : Finds (w.controllerOf s).isSome (w.findsController s) where
  congr m m' h := by rw [World.findsController, World.findsController, getEntityIndex_congr h]
  none h m := by rw [World.findsController, h, Bool.false_and]

/-- The snapshot of the slot, whatever its table has become. -/
theorem snapshotControllerLive_takeSnapshot (hmem : w₀.OnlyMemory w)
    (hp : w₀.resolveClientBySlot s = some p) (copies : List SteamIdCopy) :
    snapshotControllerLive w { takeSnapshot w₀ s p with copies := copies } p =
      if w₀.findsController s (w.client p) then w₀.controllerOf s else none := by
  obtain ⟨hcontroller, hhas, -, hhandle⟩ := @takeSnapshot_controller w₀ s p
  rw [← controllerOf_eq hp] at hcontroller hhas hhandle
  have href : w.refEHandle = w₀.refEHandle := by
    obtain ⟨_, _, rfl⟩ := hmem
    rfl
  rw [snapshotControllerLive, World.findsController, hmem.resolveController, href]
  dsimp only
  rw [hcontroller, hhas]
  cases hoc : w₀.controllerOf s with
  | none => rfl
  | some c =>
    rw [hhandle c hoc]
    cases w₀.resolveController (getEntityIndex (w.client p)) with
    | none => rfl
    | some c' =>
      by_cases hcc : c' = c
      · simp [hcc]
      · simp [hcc]

/-- The slot while the window is open, as its memory and its snapshot show it. -/
structure Held (w₀ : World) (s : Int) (p : Ptr) (y : Vote × World) (x : SlotView) : Prop where
  mem : w₀.OnlyMemory y.2
  snapshot : y.1.snapshots s = { takeSnapshot w₀ s p with copies := x.copies }
  client : y.2.client p = x.client
  controller : ∀ c, w₀.controllerOf s = some c → y.2.controller c = x.controller
  others : OthersAway s (w₀.controllerOf s) y.1

theorem Held.pass (h : Held w₀ s p y x) (hpass : PassSpares s p (w₀.controllerOf s) y y') :
    Held w₀ s p y' x where
  mem := h.mem.trans hpass.world.mem
  snapshot := hpass.snapshot.trans h.snapshot
  client := hpass.world.client.trans h.client
  controller c hc := (hpass.world.controller c hc).trans (h.controller c hc)
  others := hpass.others h.others

theorem othersAway_setSnapshot (h : OthersAway s oc v) : OthersAway s oc (v.setSnapshot s snapshot) := by
  intro t hts hc
  simp only [Vote.setSnapshot, Function.update_of_ne hts] at hc ⊢
  exact h t hts hc

theorem othersAway_restoreSlot (h : OthersAway s oc v) : OthersAway s oc (restoreSlot ids (v, w) s).1 := by
  unfold restoreSlot
  dsimp only
  split
  · exact h
  · split
    · exact othersAway_setSnapshot h
    · split
      · exact othersAway_setSnapshot h
      · split <;> exact othersAway_setSnapshot h

/-- The slot's own pass, at the opening and in a hold tick. -/
theorem Held.mark (hsid : readSteamId (w₀.client p) ≠ 0) (hmem : w₀.OnlyMemory y.2)
    (hclient : y.2.client p = x.client)
    (hcontroller : ∀ c, w₀.controllerOf s = some c → y.2.controller c = x.controller)
    (ho : OthersAway s (w₀.controllerOf s) v)
    (hsame : snapshot = { takeSnapshot w₀ s p with copies := x.copies }) {live : Bool}
    (hlive : live = true → (w₀.controllerOf s).isSome = true) :
    Held w₀ s p
      (v.setSnapshot s (applyNativeVoteMarkers y.2 snapshot p
          (if live then w₀.controllerOf s else none)).1,
        (applyNativeVoteMarkers y.2 snapshot p (if live then w₀.controllerOf s else none)).2)
      (x.applyMarkers (readSteamId (w₀.client p)) live) := by
  have hid : snapshot.sscSteamId = readSteamId (w₀.client p) := by
    rw [hsame]
    dsimp only
    exact sscSteamId_takeSnapshot
  have hcopies : snapshot.copies = x.copies := by rw [hsame]
  have hsome : (if live then w₀.controllerOf s else none).isSome = live := by
    cases live with
    | false => rfl
    | true => exact hlive rfl
  have hc : ∀ c, (if live then w₀.controllerOf s else none) = some c → y.2.controller c = x.controller := by
    intro c hc
    cases live with
    | false => simp at hc
    | true => exact hcontroller c hc
  obtain ⟨hsnapshot, hclient', hcontroller'⟩ :=
    view_applyNativeVoteMarkers hid hsid hsome hcopies hclient hc
  refine ⟨hmem.trans (onlyClient_applyNativeVoteMarkers _ _ _ _).1, ?_, hclient', fun c hoc => ?_,
    othersAway_setSnapshot ho⟩
  · rw [setSnapshot_self, hsnapshot, hsame]
  · rw [hcontroller' c, hoc]
    cases live with
    | true => exact if_pos rfl
    | false =>
      rw [if_neg (by simp), hcontroller c hoc, controller_applyMarkers, if_neg Bool.false_ne_true]

theorem takeSnapshot_congr (hp : w.resolveClientBySlot s = some p)
    (h : World.Spares p (w.controllerOf s) w w') : takeSnapshot w' s p = takeSnapshot w s p := by
  have href : w'.refEHandle = w.refEHandle := by
    obtain ⟨_, _, rfl⟩ := h.mem
    rfl
  have hc := h.controller
  rw [controllerOf_eq hp] at hc
  rw [takeSnapshot, takeSnapshot, h.client, h.mem.resolveController, href]
  cases hoc : w.resolveController (getEntityIndex (w.client p)) with
  | none => rfl
  | some c => simp only [hc c hoc]

/-- The view of a slot before the window opens. -/
def World.slotView (w : World) (s : Int) (p : Ptr) : SlotView := ⟨w.client p, w.controllerMem s, []⟩

theorem controllerMem_eq {c : Ptr} (hc : w.controllerOf s = some c) : w.controllerMem s = w.controller c := by
  rw [World.controllerMem, hc]
  rfl

/-- The capture of the slot, whatever was captured before it. -/
theorem Held.capture (hm : ids.isManaged s = true) (hp : w₀.resolveClientBySlot s = some p)
    (hsid : readSteamId (w₀.client p) ≠ 0) (h : World.Spares p (w₀.controllerOf s) w₀ y.2)
    (ho : OthersAway s (w₀.controllerOf s) y.1) :
    (captureOneManagedSlot ids y.1 y.2 s).1 = true ∧
      Held w₀ s p (captureOneManagedSlot ids y.1 y.2 s).2
        ((w₀.slotView s p).applyMarkers (readSteamId (w₀.client p)) (w₀.controllerOf s).isSome) := by
  have hrange := Identities.range_of_isManaged hm
  have hp' : y.2.resolveClientBySlot s = some p := by rw [h.mem.resolveClientBySlot, hp]
  have hcontroller : (takeSnapshot w₀ s p).controller =
      if (w₀.controllerOf s).isSome then w₀.controllerOf s else none := by
    rw [takeSnapshot_controller.1, ← controllerOf_eq hp]
    cases w₀.controllerOf s <;> rfl
  have hmark := @Held.mark (y.1.setSnapshot s {}) w₀ s p (takeSnapshot w₀ s p) (w₀.slotView s p) y hsid
    h.mem h.client (fun c hc => (h.controller c hc).trans (controllerMem_eq hc).symm)
    (othersAway_setSnapshot ho)
    (by rw [World.slotView, ← (@takeSnapshot_controller w₀ s p).2.2.1])
    (w₀.controllerOf s).isSome id
  rw [← hcontroller] at hmark
  rw [captureOneManagedSlot, if_neg (by omega)]
  simp only [hm, hp', Bool.not_true, Bool.false_eq_true, if_false, takeSnapshot_congr hp h]
  exact ⟨trivial, hmark⟩

/-- A managed slot in the disguised state outside any window. Nobody else writes to its client and its
controller: no other slot has that controller, and no disguise waits for the window to end. -/
structure DisguisedSlot (st : State) (s : Int) (p : Ptr) : Prop where
  managed : st.ids.isManaged s = true
  resolved : st.world.resolveClientBySlot s = some p
  flags : st.world.client p offConnectionTypeFlags &&& 0x09 = 0x01
  disguised : Disguised (st.world.client p) (readSteamId (st.world.client p))
  steamId : readSteamId (st.world.client p) ≠ 0
  controller : ∀ c, st.world.controllerOf s = some c →
    controllerFlags (st.world.controller c) &&& kFakeClientBit = 0
  closed : st.vote.depth = 0
  alone : ∀ t, t ≠ s → st.ids.isManaged t = true → ∀ c, st.world.controllerOf t = some c →
    st.world.controllerOf s ≠ some c
  applied : ∀ t b, st.ids.getIdentity t = some b → b.applied = true

/-- Either way of opening a window over the slot. -/
def Opens (st : State) (s : Int) (st' : State) : Prop :=
  st' = beginVoteTransaction st ∨ st' = beginVoteTransactionForSlot st s

/-- One call of `ReassertNativeVoteMarkers`. -/
def holdTick (st : State) : State :=
  { st with
    vote := (reassertNativeVoteMarkers st.ids st.vote st.world).1
    world := (reassertNativeVoteMarkers st.ids st.vote st.world).2 }

/-- The slot in an open window. -/
structure WindowOver (st : State) (s : Int) (p : Ptr) (st' : State) (x : SlotView) : Prop where
  ids : st'.ids = st.ids
  valid : st'.vote.valid = true
  held : Held st.world s p (st'.vote, st'.world) x

theorem othersAway_clearSnapshots : OthersAway s oc v.clearSnapshots :=
  fun _ _ hc => absurd hc (by simp [Vote.clearSnapshots])

theorem Held.congr_vote (h : Held w₀ s p (v, w) x) {v' : Vote} (hv : v'.snapshots = v.snapshots) :
    Held w₀ s p (v', w) x where
  mem := h.mem
  snapshot := (congrFun hv s).trans h.snapshot
  client := h.client
  controller := h.controller
  others t hts := by
    rw [hv]
    exact h.others t hts

theorem windowOver_opened {st' : State} (h : DisguisedSlot st s p) (ho : Opens st s st') :
    WindowOver st s p st' ((st.world.slotView s p).applyMarkers (readSteamId (st.world.client p))
      (st.world.controllerOf s).isSome) := by
  have hs := Identities.range_of_isManaged h.managed
  rcases ho with rfl | rfl
  · -- the captures before the slot's own, its own, and those behind it
    obtain ⟨before, after, hsplit⟩ := List.append_of_mem (mem_allSlots.mpr hs)
    have hnodup : (before ++ s :: after).Nodup := hsplit ▸ nodup_allSlots
    obtain ⟨hbefore, hafter, hapart⟩ := List.nodup_append.mp hnodup
    have hfirst : s ∉ before := fun hb => hapart s hb s List.mem_cons_self rfl
    obtain ⟨hlast, hafter⟩ := List.nodup_cons.mp hafter
    let y₀ : Vote × World := (({ st.vote with depth := st.vote.depth + 1 } : Vote).clearSnapshots, st.world)
    have hpass₁ : PassSpares s p (st.world.controllerOf s) y₀ (run (capturePass st.ids) y₀ before) :=
      passSpares_captureLoop hbefore hfirst h.resolved fun t ht =>
        h.alone t fun hts => hfirst (hts ▸ ht)
    obtain ⟨-, hheld⟩ := Held.capture h.managed h.resolved h.steamId hpass₁.world
      (hpass₁.others othersAway_clearSnapshots)
    have hpass₂ := @passSpares_captureLoop st.ids s p (st.world.controllerOf s) after _ hafter hlast
      (by rw [hheld.mem.resolveClientBySlot, h.resolved]) fun t ht hmt c hc => by
        have hts : t ≠ s := fun hts => hlast (hts ▸ ht)
        have hearlier : t ∉ before := fun hb => hapart t hb t (List.mem_cons_of_mem s ht) rfl
        rw [controllerOf_captureOneManagedSlot hts, controllerOf_captureLoop hearlier] at hc
        exact h.alone t hts hmt c hc
    have hrun : captureManagedSlots st.ids { st.vote with depth := st.vote.depth + 1 } st.world =
        ({ (run (capturePass st.ids) y₀ allSlots).1 with valid := true },
          (run (capturePass st.ids) y₀ allSlots).2) := by
      rw [captureManagedSlots, forSlots]
      rfl
    have hown : capturePass st.ids (run (capturePass st.ids) y₀ before) s =
        (captureOneManagedSlot st.ids (run (capturePass st.ids) y₀ before).1
          (run (capturePass st.ids) y₀ before).2 s).2 := by
      rw [capturePass, if_pos h.managed]
    rw [beginVoteTransaction, if_pos h.closed, hrun, hsplit, run_append, run_cons, hown]
    exact ⟨rfl, rfl, (hheld.pass hpass₂).congr_vote rfl⟩
  · rw [beginVoteTransactionForSlot, if_pos h.closed]
    obtain ⟨hcaptured, hheld⟩ := @Held.capture st.ids st.world s p
      (({ st.vote with depth := st.vote.depth + 1 } : Vote).clearSnapshots, st.world) h.managed h.resolved
      h.steamId .refl othersAway_clearSnapshots
    exact ⟨rfl, hcaptured, hheld.congr_vote rfl⟩

theorem Held.snapshot_spec (h : Held w₀ s p y x) : (y.1.snapshots s).captured = true ∧
    (y.1.snapshots s).slot = s ∧ (y.1.snapshots s).client = some p ∧
      (y.1.snapshots s).sscSteamId = readSteamId (w₀.client p) := by
  rw [h.snapshot]
  dsimp only
  exact takeSnapshot_spec

theorem Held.controllerLive (h : Held w₀ s p y x) (hp : w₀.resolveClientBySlot s = some p) :
    snapshotControllerLive y.2 (y.1.snapshots s) p =
      if w₀.findsController s x.client then w₀.controllerOf s else none := by
  rw [h.snapshot, snapshotControllerLive_takeSnapshot h.mem hp, h.client]

/-- The slot's own pass in a hold tick. -/
theorem Held.reassert (h : Held w₀ s p y x) (hm : ids.isManaged s = true)
    (hp : w₀.resolveClientBySlot s = some p) (hsid : readSteamId (w₀.client p) ≠ 0) :
    Held w₀ s p (reassertSlot ids y s)
      (x.applyMarkers (readSteamId (w₀.client p)) (w₀.findsController s x.client)) := by
  obtain ⟨hc, hslot, hclient, -⟩ := h.snapshot_spec
  have hp' : y.2.resolveClientBySlot s = some p := by rw [h.mem.resolveClientBySlot, hp]
  have hlive : w₀.findsController s x.client = true → (w₀.controllerOf s).isSome = true := by
    intro hf
    rw [World.findsController, Bool.and_eq_true] at hf
    exact hf.1
  have hmark := @Held.mark y.1 w₀ s p (y.1.snapshots s) x y hsid h.mem h.client h.controller h.others
    h.snapshot _ hlive
  rw [← h.controllerLive hp] at hmark
  unfold reassertSlot
  dsimp only
  rw [if_neg (by simp [hc, hslot, hm]), hslot, hp', hclient]
  dsimp only
  rw [if_neg (by simp)]
  exact hmark

theorem windowOver_holdTick {st' : State} (h : DisguisedSlot st s p) (hw : WindowOver st s p st' x) :
    WindowOver st s p (holdTick st') (x.applyMarkers (readSteamId (st.world.client p))
      (st.world.findsController s x.client)) := by
  have hs := Identities.range_of_isManaged h.managed
  obtain ⟨hids, hvalid, hheld⟩ := hw
  have hpass : ∀ (z : SlotView) (y : Vote × World) (t : Int), t ≠ s →
      Held st.world s p y z ∧ y.1.valid = true →
      Held st.world s p (reassertSlot st'.ids y t) z ∧ (reassertSlot st'.ids y t).1.valid = true := by
    rintro z y t hts ⟨hz, hv⟩
    have hspares : PassSpares s p (st.world.controllerOf s) y (reassertSlot st'.ids y t) :=
      passSpares_reassertSlot hts (by rw [hz.mem.resolveClientBySlot, h.resolved]) hz.others
    exact ⟨hz.pass hspares, hspares.valid.trans hv⟩
  have hown : ∀ y : Vote × World, Held st.world s p y x ∧ y.1.valid = true →
      Held st.world s p (reassertSlot st'.ids y s) (x.applyMarkers (readSteamId (st.world.client p))
        (st.world.findsController s x.client)) ∧ (reassertSlot st'.ids y s).1.valid = true := by
    rintro y ⟨hy, hv⟩
    obtain ⟨-, hslot, -⟩ := hy.snapshot_spec
    obtain ⟨-, -, hkeep, -⟩ := @reassertSlot_frame st'.ids y.1 y.2 s fun _ => hslot
    exact ⟨hy.reassert (by rw [hids, h.managed]) h.resolved h.steamId, hkeep.trans hv⟩
  have hloop := forSlots_at (reassertSlot st'.ids) hs.1 hs.2 (hpass x) hown (hpass _) ⟨hheld, hvalid⟩
  have htick : reassertNativeVoteMarkers st'.ids st'.vote st'.world =
      forSlots (reassertSlot st'.ids) (st'.vote, st'.world) := by
    rw [reassertNativeVoteMarkers, hvalid]
    rfl
  rw [holdTick, htick]
  exact ⟨hids, hloop.2, hloop.1⟩

/-- The slot after any number of hold ticks. -/
theorem windowOver_holdTicks {st' : State} (h : DisguisedSlot st s p) (ho : Opens st s st') (n : Nat) :
    WindowOver st s p (holdTick^[n] st') (SlotView.held (readSteamId (st.world.client p))
      (st.world.controllerOf s).isSome (st.world.findsController s) (st.world.client p)
      (st.world.controllerMem s) n) := by
  induction n with
  | zero => exact windowOver_opened h ho
  | succ n ih =>
    rw [Function.iterate_succ_apply', SlotView.held, Function.iterate_succ_apply']
    exact windowOver_holdTick h ih

/-- What the end of the window leaves of the slot's objects. -/
structure Ends (w₀ : World) (s : Int) (p : Ptr) (w : World) (x : SlotView) : Prop where
  mem : w₀.OnlyMemory w
  client : w.client p = x.client
  controller : ∀ c, w₀.controllerOf s = some c → w.controller c = x.controller

theorem Ends.pass (h : Ends w₀ s p w x) (hpass : World.Spares p (w₀.controllerOf s) w w') :
    Ends w₀ s p w' x where
  mem := h.mem.trans hpass.mem
  client := hpass.client.trans h.client
  controller c hc := (hpass.controller c hc).trans (h.controller c hc)

/-- The slot's own pass at the end of the window. -/
theorem Held.restore (h : Held w₀ s p y x) (hm : ids.isManaged s = true)
    (hp : w₀.resolveClientBySlot s = some p) :
    Ends w₀ s p (restoreSlot ids y s).2
      (x.replay (readSteamId (w₀.client p)) (w₀.findsController s x.client)) := by
  obtain ⟨hc, hslot, hclient, hsid⟩ := h.snapshot_spec
  have hp' : y.2.resolveClientBySlot s = some p := by rw [h.mem.resolveClientBySlot, hp]
  have hrun : (restoreSlot ids y s).2 = replayDisguise y.2 (y.1.snapshots s) p := by
    simp [restoreSlot, hc, hslot, hm, hp', hclient]
  have hcopies : (y.1.snapshots s).copies = x.copies := by rw [h.snapshot]
  -- what is written back before the controller is looked up leaves the entity index alone
  have hlive : snapshotControllerLive
      (y.2.onClient p fun m => writeSteamId (clearFakePlayer m) (readSteamId (w₀.client p)))
      (y.1.snapshots s) p = if w₀.findsController s x.client then w₀.controllerOf s else none := by
    rw [h.snapshot, snapshotControllerLive_takeSnapshot (h.mem.trans onlyMemory_onClient) hp,
      client_onClient_self, h.client, finds_findsController.congr _ x.client]
    intro k hk
    simp only [offEntityIndex]
    rw [writeSteamId_out (by simp only [offSteamID]; omega),
      clearFakePlayer_of_ne (by simp only [offConnectionTypeFlags]; omega)
        (by simp only [offFakePlayer]; omega)]
  rw [hrun]
  refine ⟨h.mem.trans onlyClient_replayDisguise.1, ?_, fun c hoc => ?_⟩
  · rw [replayDisguise, restoreSteamIdCopies, client_foldl_restoreCopy, client_onLiveController,
      client_onClient_self, hcopies, hsid, h.client]
    rfl
  · rw [replayDisguise, restoreSteamIdCopies, hsid, hlive, hcopies, hoc]
    cases w₀.findsController s x.client with
    | false =>
      rw [if_neg Bool.false_ne_true, controller_foldl_restoreCopy_none]
      exact h.controller c hoc
    | true =>
      rw [if_pos rfl, controller_foldl_restoreCopy, onLiveController, controller_onController_self,
        controller_onClient, h.controller c hoc]
      rfl

/-- No disguise waits, so that the last loop of `RestorePlayerIdentity` does nothing. -/
theorem forSlots_applyDisguiseIfPending_eq (h : ∀ t b, st.ids.getIdentity t = some b → b.applied = true) :
    forSlots applyDisguiseIfPending st = st := by
  refine forSlots_invariant (I := (· = st)) ?_ rfl
  rintro _ t rfl
  rw [applyDisguiseIfPending]
  split
  · split
    · rename_i b hb
      rw [if_pos (h t b hb)]
    · rfl
  · rfl

/-- What closing the window makes of the slot. -/
theorem ends_closeVoteTransaction {st' : State} (h : DisguisedSlot st s p) (hw : WindowOver st s p st' x) :
    Ends st.world s p (closeVoteTransaction st').world
      (x.replay (readSteamId (st.world.client p)) (st.world.findsController s x.client)) := by
  have hs := Identities.range_of_isManaged h.managed
  obtain ⟨hids, hvalid, hheld⟩ := hw
  have hpass : ∀ (y : Vote × World) (t : Int), t ≠ s → st.world.OnlyMemory y.2 →
      OthersAway s (st.world.controllerOf s) y.1 →
      PassSpares s p (st.world.controllerOf s) y (restoreSlot st'.ids y t) := by
    intro y t hts hmem ho
    exact passSpares_restoreSlot hts (by rw [hmem.resolveClientBySlot, h.resolved]) ho
  let v' : Vote :=
    { st'.vote with holdFramesRemaining := 0, endScheduled := false, depth := 0, valid := false }
  have hloop : Ends st.world s p (forSlots (restoreSlot st'.ids) (v', st'.world)).2
        (x.replay (readSteamId (st.world.client p)) (st.world.findsController s x.client)) ∧
      OthersAway s (st.world.controllerOf s) (forSlots (restoreSlot st'.ids) (v', st'.world)).1 := by
    refine forSlots_at (restoreSlot st'.ids) (x := (v', st'.world))
      (J := fun y => Held st.world s p y x)
      (Q := fun y => Ends st.world s p y.2 (x.replay (readSteamId (st.world.client p))
        (st.world.findsController s x.client)) ∧ OthersAway s (st.world.controllerOf s) y.1)
      hs.1 hs.2 ?_ ?_ ?_ (hheld.congr_vote rfl)
    · intro y t hts hy
      exact hy.pass (hpass y t hts hy.mem hy.others)
    · intro y hy
      exact ⟨hy.restore (by rw [hids, h.managed]) h.resolved, othersAway_restoreSlot hy.others⟩
    · rintro y t hts ⟨hy, ho⟩
      have hspares := hpass y t hts hy.mem ho
      exact ⟨hy.pass hspares.world, hspares.others ho⟩
  have hclosed : (closeVoteTransaction st').world = (forSlots (restoreSlot st'.ids) (v', st'.world)).2 := by
    have hnone : ∀ v w, forSlots applyDisguiseIfPending { st' with vote := v, world := w } =
        { st' with vote := v, world := w } := by
      intro v w
      apply forSlots_applyDisguiseIfPending_eq
      rw [hids]
      exact h.applied
    rw [closeVoteTransaction, restorePlayerIdentity, if_neg (by simp [hvalid])]
    dsimp only
    rw [hnone]
  rw [hclosed]
  exact hloop.1

/-- Every byte of the slot's two regions is as it was. -/
def Transparent (w w' : World) (s : Int) (p : Ptr) : Prop :=
  (∀ a < kSscScanBytes, w'.client p a = w.client p a) ∧
    ∀ c, w.controllerOf s = some c → ∀ a < kControllerScanBytes, w'.controller c a = w.controller c a

/-- What a window does to the slot's two regions can be undone. -/
def WindowUndoable (w : World) (s : Int) (p : Ptr) : Prop :=
  SlotView.Undoable (readSteamId (w.client p)) (w.controllerOf s).isSome (w.findsController s)
    (w.client p) (w.controllerMem s)

theorem Ends.transparent_iff (h : Ends w₀ s p w x) : Transparent w₀ w s p ↔
    Restored (w₀.controllerOf s).isSome (w₀.client p) (w₀.controllerMem s) x := by
  rw [Transparent, Restored, h.client]
  apply and_congr_right'
  constructor
  · intro hc hsome
    obtain ⟨c, hoc⟩ := Option.isSome_iff_exists.mp hsome
    rw [controllerMem_eq hoc, ← h.controller c hoc]
    exact hc c hoc
  · intro hc c hoc
    rw [← controllerMem_eq hoc, h.controller c hoc]
    exact hc (by rw [hoc, Option.isSome_some])

/-- A window is undoable where a non-zero byte of the SteamID64 stands nowhere but in the two fields:
there are no further copies then, and blanking makes none. -/
theorem windowUndoable_of_rare_byte {k : Nat} {b : UInt8} (hp : w.resolveClientBySlot s = some p)
    (hk : k < 8) (hbyte : b = UInt8.ofNat ((readSteamId (w.client p)).toNat / 256 ^ k)) (hb : b ≠ 0)
    (hclient : ∀ a, setFakePlayer (w.client p) a = b → a = offSteamID + k ∨ a = offSteamIDMirror + k)
    (hcontroller : ∀ a, setControllerFakeClientFlag (w.controllerMem s) a ≠ b) :
    WindowUndoable w s p := by
  subst hbyte
  have hfields : ∀ a, Covers (clientMarkers.hits (readSteamId (w.client p)) kSscScanBytes (w.client p)) a →
      clientMarkers.Field a := by
    rintro a ⟨h, hh, hlo, hhi⟩
    have hoff := hclient (h + k) (byte_of_hit hk hh)
    simp only [clientMarkers, offSteamID, offSteamIDMirror] at hoff ⊢
    omega
  have hagain := Markers.hits_hold_eq_nil hk hb (fun a ha => by
    have hoff := hclient a ha
    simp only [clientMarkers, offSteamID, offSteamIDMirror] at hoff ⊢
    omega) hfields
  have hnothing : controllerHits (readSteamId (w.client p)) (w.controllerMem s) = [] :=
    List.eq_nil_iff_forall_not_mem.mpr fun h hh => hcontroller _ (byte_of_hit hk hh)
  have hnone : ∀ a, ¬ Covers (controllerHits (readSteamId (w.client p)) (w.controllerMem s)) a := by
    rintro a ⟨h, hh, -⟩
    rw [hnothing] at hh
    simp at hh
  have hlive : (w.controllerOf s).isSome = true →
      w.findsController s (clientMarkers.hold (readSteamId (w.client p)) kSscScanBytes (w.client p)) = true := by
    intro hsome
    rw [finds_findsController.congr _ (w.client p), World.findsController, hsome, ← controllerOf_eq hp]
    · simp
    · intro j hj
      have hf : ¬ clientMarkers.Field (offEntityIndex + j) := by
        simp only [clientMarkers, offEntityIndex, offSteamID, offSteamIDMirror]
        omega
      rw [Markers.hold_other hf fun hc => hf (hfields _ hc)]
      apply clientMarkers.set_out
      simp only [clientMarkers, offEntityIndex, offConnectionTypeFlags, offFakePlayer]
      omega
  refine ⟨Markers.recoverable_of_fields (List.take_append_drop _ _).symm hfields hagain, fun _ _ => ?_,
    fun hsome hlost => ?_⟩
  · refine Markers.recoverable_of_fields (List.take_append_drop _ _).symm (fun a hc => absurd hc (hnone a)) ?_
    refine Markers.hits_hold_eq_nil hk hb (fun a ha => absurd ha (hcontroller a)) ?_
    exact fun a hc => absurd hc (hnone a)
  · rw [hlive hsome] at hlost
    simp at hlost

/-- A copy that is not put back, and is not harmless either, makes the window visible. -/
theorem not_transparent_of_lost {st' : State} {a : Nat} (h : DisguisedSlot st s p) (ho : Opens st s st')
    (ha : Covers ((clientHits (readSteamId (st.world.client p)) (st.world.client p)).drop
      kMaxSteamIdCopies) a)
    (hharm : ¬ clientMarkers.Harmless (st.world.client p) a) :
    ¬ Transparent st.world (closeVoteTransaction st').world s p := by
  intro ht
  have hrestored := (ends_closeVoteTransaction h (windowOver_opened h ho)).transparent_iff.mp ht
  have hopened := @steady_opened (readSteamId (st.world.client p)) (st.world.controllerOf s).isSome
    (st.world.findsController s) (st.world.client p) (st.world.controllerMem s) finds_findsController
  have hlost := ((client_restored_iff (atRest_client h.flags h.disguised) hopened.copies
    hopened.client).mp hrestored.1).2
  exact hharm (hlost a ha)

/-- The windows over a disguised slot leave every byte as it was, whatever the number of hold ticks,
exactly where the window is undoable. -/
theorem window_transparent_iff {st' : State} (h : DisguisedSlot st s p) (ho : Opens st s st') :
    (∀ n, Transparent st.world (closeVoteTransaction (holdTick^[n] st')).world s p) ↔
      WindowUndoable st.world s p := by
  have hrest : (st.world.controllerOf s).isSome = true →
      controllerMarkers.AtRest (readSteamId (st.world.client p)) (st.world.controllerMem s) := by
    intro hsome
    obtain ⟨c, hc⟩ := Option.isSome_iff_exists.mp hsome
    rw [controllerMem_eq hc]
    exact atRest_controller (h.controller c hc)
  rw [WindowUndoable, ← restored_iff_undoable h.steamId (atRest_client h.flags h.disguised) hrest
    finds_findsController]
  apply forall_congr'
  intro n
  exact (ends_closeVoteTransaction h (windowOver_holdTicks h ho n)).transparent_iff

/-- A disguised client with this many copies of the SteamID64 in a row: the two fields, and what more
there is right behind them. -/
def clientWithCopies (n : Nat) : Mem := fun a =>
  if offSteamID ≤ a ∧ a < offSteamID + 8 * n then
    UInt8.ofNat (76561197960265729 / 256 ^ ((a - offSteamID) % 8))
  else if a = offConnectionTypeFlags then 1
  else if a = offEntityIndex then 5
  else 0

/-- A connected bot on a server where its client holds such a memory. -/
def botWithCopies (n : Nat) : State :=
  (step .idle
    (load .plain [] (.single (ascii "INTEL") 76561197960265729 intel_fits) true (fun _ => 0)
      (.ofClients [100] nodup_solo))
    ⟨serverWithEntity true freshClient freshController, .onClientConnected 0 none 0 true⟩).withWorld
    (serverWithEntity true (clientWithCopies n) fun _ => 0)

theorem readLE_clientWithCopies {n j : Nat} (hj : j < n) :
    readLE (clientWithCopies n) (offSteamID + 8 * j) 8 = 76561197960265729 := by
  rw [readLE_eq_iff (by decide)]
  intro k hk
  have hin : offSteamID ≤ offSteamID + 8 * j + k ∧ offSteamID + 8 * j + k < offSteamID + 8 * n := by
    omega
  have hmod : (offSteamID + 8 * j + k - offSteamID) % 8 = k := by omega
  rw [clientWithCopies, if_pos hin, hmod]

/-- One byte of the SteamID64 stands nowhere but in the two fields. -/
theorem rare_clientWithCopies (a : Nat) (ha : setFakePlayer (clientWithCopies 2) a = 0x10) :
    a = offSteamID + 6 ∨ a = offSteamIDMirror + 6 := by
  by_cases hflag : a = offConnectionTypeFlags ∨ a = offFakePlayer
  · obtain rfl | rfl := hflag
    · exact absurd ha (by decide)
    · exact absurd ha (by decide)
  · rw [not_or] at hflag
    rw [setFakePlayer_of_ne hflag.1 hflag.2, clientWithCopies] at ha
    split at ha
    · rename_i hin
      obtain ⟨j, rfl⟩ := Nat.exists_eq_add_of_le hin.1
      have hbytes : ∀ j < 16, UInt8.ofNat (76561197960265729 / 256 ^ (j % 8)) = 0x10 →
          j = 6 ∨ j = 14 := by decide
      rw [Nat.add_sub_cancel_left] at ha
      have hj := hbytes j (by omega) ha
      simp only [offSteamID, offSteamIDMirror]
      omega
    · split at ha
      · simp at ha
      · split at ha <;> simp at ha

theorem no_rare_byte (a : Nat) : setControllerFakeClientFlag (fun _ => 0) a ≠ 0x10 := by
  rw [setControllerFakeClientFlag_apply]
  split <;> simp

theorem disguisedSlot_botWithCopies {n : Nat} (hn : 2 ≤ n) : DisguisedSlot (botWithCopies n) 0 100 := by
  have hword : ∀ j < n, readLE (clientWithCopies n) (offSteamID + 8 * j) 8 = 76561197960265729 :=
    fun j hj => readLE_clientWithCopies hj
  have hslots : (botWithCopies n).ids.slots = Function.update (fun _ => -1) 0 0 := rfl
  have hsolo : ∀ t i, (botWithCopies n).ids.Holds t i → t = 0 := by
    intro t i hi
    by_contra hne
    have hslot := hi.2.2
    rw [hslots, Function.update_of_ne hne] at hslot
    omega
  have hsid : readSteamId ((botWithCopies n).world.client 100) = 76561197960265729 := by
    have hfield := hword 0 (by omega)
    exact congrArg UInt64.ofNat hfield
  have hflags : (botWithCopies n).world.client 100 offConnectionTypeFlags = 1 := rfl
  constructor
  · rfl
  · rfl
  · rw [hflags]
    decide
  · rw [hsid]
    exact ⟨rfl, hword 0 (by omega), hword 1 (by omega)⟩
  · rw [hsid]
    decide
  · intro c _
    change controllerFlags (fun _ => 0) &&& kFakeClientBit = 0
    decide
  · rfl
  · intro t ht hm
    obtain ⟨i, hold⟩ := Identities.isManaged_iff.mp hm
    exact absurd (hsolo t i hold) ht
  · intro t b hb
    obtain ⟨i, hold, -⟩ := Identities.holds_of_getIdentity hb
    obtain rfl := hsolo t i hold
    have happlied : ((botWithCopies n).ids.getIdentity 0).map BotIdentity.applied = some true := rfl
    rw [hb] at happlied
    exact Option.some.inj happlied

theorem window_transparent_without_copies :
    Transparent (botWithCopies 2).world
      (closeVoteTransaction (holdTick^[3] (beginVoteTransaction (botWithCopies 2)))).world 0 100 := by
  have hundoable : WindowUndoable (botWithCopies 2).world 0 100 :=
    @windowUndoable_of_rare_byte _ _ _ 6 0x10 rfl (by decide) rfl (by decide) rare_clientWithCopies
      no_rare_byte
  exact (window_transparent_iff (disguisedSlot_botWithCopies (by decide)) (Or.inl rfl)).mpr hundoable 3

/-- Of nine copies in a row the ninth is not put back. -/
theorem window_loses_ninth_copy :
    DisguisedSlot (botWithCopies 9) 0 100 ∧
      ¬ Transparent (botWithCopies 9).world
        (closeVoteTransaction (beginVoteTransaction (botWithCopies 9))).world 0 100 := by
  have hslot := @disguisedSlot_botWithCopies 9 (by decide)
  have hsid : readSteamId (clientWithCopies 9) = 76561197960265729 := by decide +kernel
  have hninth : 235 ∈ (clientHits 76561197960265729 (clientWithCopies 9)).drop kMaxSteamIdCopies := by
    decide +kernel
  refine ⟨hslot, not_transparent_of_lost hslot (Or.inl rfl) (a := 235) ⟨235, ?_, le_rfl, by decide⟩ ?_⟩
  · rw [← hsid] at hninth
    exact hninth
  · rintro (hfield | hzero)
    · simp [clientMarkers, offSteamIDMirror] at hfield
    · exact absurd hzero (by decide)

end Botid
