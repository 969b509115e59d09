import Botid.SingleSlot

/-! All that the plugin does to the engine: a few guarded effects, and no hook has any other. -/
namespace Botid

open ByteMem World Relation

variable {E : EngineCalls} {st st' : State} {ids ids' : Identities} {v : Vote} {w w' w₁ w₂ : World}
  {s t : Int} {p q c client : Ptr} {M N : Int → Prop} {pending pending' : List PendingControllerRemoval}
  {item : PendingControllerRemoval} {remove : Ptr → World → World}

/-- Only the memory of this client and of its controller was written. -/
def World.OnlyPair (p : Ptr) (w w' : World) : Prop :=
  ∀ q oc, p ≠ q → (∀ c, w.resolveController (getEntityIndex (w.client p)) = some c → oc ≠ some c) →
    Spares q oc w w'

/-- The controller plays for one of the two teams. -/
def World.OnTeam (w : World) (c : Ptr) : Prop :=
  readControllerTeam (w.controller c) = 2 ∨ readControllerTeam (w.controller c) = 3

/-- What a queued item may be removed as: the controller it was queued for, still under its handle, that
no client with another user id refers to. -/
structure World.Removable (E : EngineCalls) (w : World) (item : PendingControllerRemoval) : Prop where
  resolves : w.resolveController (E.getEntryIndex item.handle) = some item.controller
  handle : w.refEHandle item.controller = item.handle
  identity : w.entityIdentity item.controller ≠ none
  user : ∀ userId, isControllerReferencedByClient w item.controller = some userId →
    userId = 65535 ∨ userId = item.userId

/-- Off the team, then removed. -/
def World.removed (E : EngineCalls) (remove : Ptr → World → World) (w : World) (c : Ptr) : World :=
  remove c (detachControllerFromTeam E w c)

/-- One effect: what it may befall and what it then does, for the slots in `M`, the slots that `ids`
manages and the items queued. -/
inductive Effect (E : EngineCalls) (M : Int → Prop) (ids : Identities)
    (pending : List PendingControllerRemoval) : World → World → Prop
  /-- A disguise, its removal or a window writes one client and its controller. -/
  | rewrite {w w' : World} {s : Int} {p : Ptr} (hs : M s) (hp : w.resolveClientBySlot s = some p)
      (h : w.OnlyPair p w') : Effect E M ids pending w w'
  /-- `ChangeTeam` moves a bot's controller from its team to the spectators. -/
  | spectate {w w' : World} {s : Int} {c : Ptr} (hs : ids.isManaged s = true)
      (hc : w.controllerOf s = some c) (hlive : w.isEntityBeingDeleted c = false) (hteam : w.OnTeam c)
      (h : E.changeTeam c kSpectatorTeam w = some w') : Effect E M ids pending w w'
  /-- A queued controller is removed. -/
  | drain {w : World} {item : PendingControllerRemoval} {n : Nat} {remove : Ptr → World → World}
      (hitem : { item with referencedFrames := n } ∈ pending) (h : w.Removable E item)
      (hr : E.utilRemove = some remove) : Effect E M ids pending w (w.removed E remove item.controller)
  /-- The controller behind an empty or leftover slot leaves its team, and goes unless it is going. -/
  | reap {w : World} {s : Int} {c : Ptr} {remove : Ptr → World → World}
      (hc : w.resolveController (s + 1) = some c) (hs : clientLooksLeftoverOrEmpty ids w s = true)
      (hteam : w.OnTeam c) (hr : E.utilRemove = some remove) :
      Effect E M ids pending w
        (if (detachControllerFromTeam E w c).isEntityBeingDeleted c then detachControllerFromTeam E w c
        else w.removed E remove c)
  /-- The client list loses a tail of leftovers. -/
  | shrink {w : World} {n : Nat} (h : ∀ k : Nat, n ≤ k → k < w.clientListCount →
      isTrailingLeftoverSlot ids w k = true) : Effect E M ids pending w (w.shrinkClientListTo n)
  /-- A leftover gives up its user id. -/
  | neutralize {w : World} {s : Int} {p : Ptr} (hs : ids.isManaged s = false)
      (hp : w.resolveClientBySlot s = some p) (hchannel : readNetChannel (w.client p) = 0)
      (hsid : readSteamId (w.client p) = 0) :
      Effect E M ids pending w (w.onClient p fun m => writeUserId m 65535)

/-- Any number of effects. -/
def Effects (E : EngineCalls) (M : Int → Prop) (ids : Identities)
    (pending : List PendingControllerRemoval) : World → World → Prop :=
  ReflTransGen (Effect E M ids pending)

theorem Effects.refl : Effects E M ids pending w w := ReflTransGen.refl

theorem Effects.trans (h : Effects E M ids pending w w₁) (h' : Effects E M ids pending w₁ w₂) :
    Effects E M ids pending w w₂ := ReflTransGen.trans h h'

theorem Effect.effects (h : Effect E M ids pending w w') : Effects E M ids pending w w' :=
  ReflTransGen.single h

theorem leftover_congr (h : ids'.slots = ids.slots) :
    leftoverOrEmpty ids' w s = leftoverOrEmpty ids w s := by
  simp only [leftoverOrEmpty, Identities.isManaged_congr h]

/-- Effects ask which slots are managed, not by which identity, and do not mind how long an item has
been waiting. -/
theorem Effect.mono (h : Effect E M ids' pending' w w') (hM : ∀ t, M t → N t)
    (hids : ids'.slots = ids.slots)
    (hpending : ∀ item ∈ pending', ∃ n, { item with referencedFrames := n } ∈ pending) :
    Effect E N ids pending w w' := by
  cases h with
  | rewrite hs hp h => exact .rewrite (hM _ hs) hp h
  | spectate hs hc hlive hteam h =>
    rw [Identities.isManaged_congr hids] at hs
    exact .spectate hs hc hlive hteam h
  | drain hitem h hr =>
    obtain ⟨n, hn⟩ := hpending _ hitem
    exact .drain hn h hr
  | reap hc hs hteam hr =>
    rw [clientLooksLeftoverOrEmpty, leftover_congr hids] at hs
    exact .reap hc hs hteam hr
  | shrink h =>
    refine .shrink fun k hk hk' => ?_
    rw [isTrailingLeftoverSlot, ← leftover_congr hids]
    exact h k hk hk'
  | neutralize hs hp hchannel hsid =>
    rw [Identities.isManaged_congr hids] at hs
    exact .neutralize hs hp hchannel hsid

theorem Effects.mono (h : Effects E M ids' pending' w w') (hM : ∀ t, M t → N t)
    (hids : ids'.slots = ids.slots)
    (hpending : ∀ item ∈ pending', ∃ n, { item with referencedFrames := n } ∈ pending) :
    Effects E N ids pending w w' := by
  induction h with
  | refl => exact .refl
  | tail _ hlast ih => exact ih.trans (hlast.mono hM hids hpending).effects

theorem Effects.of_slots (h : Effects E M ids pending w w') (hM : ∀ t, M t → N t) :
    Effects E N ids pending w w' :=
  h.mono hM rfl fun item hitem => ⟨item.referencedFrames, hitem⟩

section Functions

theorem effects_captureOneManagedSlot :
    Effects E ids.Managed ids pending w (captureOneManagedSlot ids v w s).2.2 := by
  rw [captureOneManagedSlot]
  split
  · exact .refl
  · dsimp only
    split
    · exact .refl
    · rename_i hm
      split
      · exact .refl
      · rename_i client hp
        refine (Effect.rewrite (by simpa [Identities.Managed] using hm) hp fun q oc hq hc => ?_).effects
        apply spares_applyNativeVoteMarkers hq
        rw [takeSnapshot_controller.1]
        exact hc

theorem effects_captureManagedSlots :
    Effects E ids.Managed ids pending w (captureManagedSlots ids v w).2 := by
  rw [captureManagedSlots]
  refine forSlots_invariant (I := fun y : Vote × World => Effects E ids.Managed ids pending w y.2)
    ?_ .refl
  intro y t h
  split
  · exact h.trans effects_captureOneManagedSlot
  · exact h

theorem effects_reassertSlot :
    Effects E ids.Managed ids pending w (reassertSlot ids (v, w) s).2 := by
  unfold reassertSlot
  dsimp only
  split
  · exact .refl
  · rename_i hm
    split
    · exact .refl
    · rename_i client hp
      split
      · exact .refl
      · have hmanaged : ids.Managed (v.snapshots s).slot := by
          simpa [Identities.Managed] using (not_or.mp hm).2
        refine (Effect.rewrite hmanaged hp fun q oc hq hc => ?_).effects
        exact spares_applyNativeVoteMarkers hq fun c h => hc c (snapshotControllerLive_resolves h)

theorem effects_reassertNativeVoteMarkers :
    Effects E ids.Managed ids pending w (reassertNativeVoteMarkers ids v w).2 := by
  rw [reassertNativeVoteMarkers]
  split
  · exact .refl
  · refine forSlots_invariant (I := fun y : Vote × World => Effects E ids.Managed ids pending w y.2)
      ?_ .refl
    exact fun y t h => h.trans effects_reassertSlot

theorem effects_restoreSlot :
    Effects E ids.Managed ids pending w (restoreSlot ids (v, w) s).2 := by
  unfold restoreSlot
  dsimp only
  split
  · exact .refl
  · split
    · exact .refl
    · rename_i hm
      split
      · exact .refl
      · rename_i client hp
        split
        · exact .refl
        · have hmanaged : ids.Managed (v.snapshots s).slot := by simpa [Identities.Managed] using hm
          refine (Effect.rewrite hmanaged hp fun q oc hq hc => ?_).effects
          refine spares_replayDisguise hq fun c hlive => hc c ?_
          have hfound := snapshotControllerLive_resolves hlive
          rwa [client_onClient_self, getEntityIndex_disguised] at hfound

theorem effects_applyDisguise (st : State) {i : Nat} :
    Effects E (· = s) ids pending st.world (applyDisguise st s i).world := by
  rcases applyDisguise_cases st s i with h | ⟨b, -, -, -, ⟨-, h⟩ | ⟨client, -, hp, h⟩⟩
  · rw [h]
    exact .refl
  · rw [h]
    exact .refl
  · rw [h]
    exact (Effect.rewrite (M := (· = s)) rfl hp fun q oc hq hc => spares_disguise hq hc).effects

theorem effects_applyDisguiseIfPending :
    Effects E st.ids.Managed st.ids st.pending st.world (applyDisguiseIfPending st s).world := by
  rcases applyDisguiseIfPending_cases st s with h | ⟨i, hold, h⟩
  · rw [h]
    exact .refl
  · rw [h]
    apply (effects_applyDisguise st).of_slots
    rintro t rfl
    exact hold.isManaged

theorem pending_applyDisguiseIfPending : (applyDisguiseIfPending st s).pending = st.pending := by
  rcases applyDisguiseIfPending_cases st s with h | ⟨i, -, h⟩
  · rw [h]
  · rw [h]
    rcases applyDisguise_cases st s i with h | ⟨b, -, -, -, ⟨-, h⟩ | ⟨client, -, -, h⟩⟩ <;> rw [h]

/-- What a pass over pending disguises leaves as it was. -/
structure SameSlots (st st' : State) : Prop where
  slots : st'.ids.slots = st.ids.slots
  pending : st'.pending = st.pending

theorem SameSlots.effects (h : SameSlots st st')
    (heffects : Effects E st'.ids.Managed st'.ids st'.pending w w') :
    Effects E st.ids.Managed st.ids st.pending w w' := by
  rw [managed_congr h.slots, h.pending] at heffects
  exact heffects.mono (fun _ ht => ht) h.slots fun item hitem => ⟨item.referencedFrames, hitem⟩

theorem effects_applyPending (st : State) : SameSlots st (forSlots applyDisguiseIfPending st) ∧
    Effects E st.ids.Managed st.ids st.pending st.world (forSlots applyDisguiseIfPending st).world := by
  refine forSlots_invariant (I := fun st' : State => SameSlots st st' ∧
    Effects E st.ids.Managed st.ids st.pending st.world st'.world) ?_ ⟨⟨rfl, rfl⟩, .refl⟩
  rintro st' t ⟨hsame, h⟩
  refine ⟨⟨slots_applyDisguiseIfPending.trans hsame.slots,
    pending_applyDisguiseIfPending.trans hsame.pending⟩, h.trans ?_⟩
  exact hsame.effects effects_applyDisguiseIfPending

theorem effects_restorePlayerIdentity (st : State) : SameSlots st (restorePlayerIdentity st) ∧
    Effects E st.ids.Managed st.ids st.pending st.world (restorePlayerIdentity st).world := by
  rw [restorePlayerIdentity]
  split
  · exact ⟨⟨rfl, rfl⟩, .refl⟩
  · have hrestored : Effects E st.ids.Managed st.ids st.pending st.world
        (forSlots (restoreSlot st.ids) ({ st.vote with valid := false }, st.world)).2 :=
      forSlots_invariant (I := fun y : Vote × World =>
        Effects E st.ids.Managed st.ids st.pending st.world y.2)
        (fun y t h => h.trans effects_restoreSlot) .refl
    dsimp only
    generalize forSlots (restoreSlot st.ids) ({ st.vote with valid := false }, st.world) =
      restored at hrestored ⊢
    obtain ⟨hsame, hpass⟩ :=
      effects_applyPending (E := E) { st with vote := restored.1, world := restored.2 }
    exact ⟨⟨hsame.slots, hsame.pending⟩, hrestored.trans hpass⟩

theorem effects_closeVoteTransaction : SameSlots st (closeVoteTransaction st) ∧
    Effects E st.ids.Managed st.ids st.pending st.world (closeVoteTransaction st).world := by
  obtain ⟨hsame, h⟩ := effects_restorePlayerIdentity (E := E) { st with
    vote := { st.vote with holdFramesRemaining := 0, endScheduled := false, depth := 0 } }
  exact ⟨⟨hsame.slots, hsame.pending⟩, h⟩

theorem effects_beginVoteTransaction (st : State) :
    Effects E st.ids.Managed st.ids st.pending st.world (beginVoteTransaction st).world := by
  rw [beginVoteTransaction]
  split
  · exact effects_captureManagedSlots
  · exact .refl

theorem effects_beginVoteTransactionForSlot (st : State) :
    Effects E st.ids.Managed st.ids st.pending st.world (beginVoteTransactionForSlot st s).world := by
  rw [beginVoteTransactionForSlot]
  split
  · exact effects_captureOneManagedSlot
  · exact .refl

theorem effects_forceEndVoteTransaction :
    Effects E st.ids.Managed st.ids st.pending st.world (forceEndVoteTransaction st).world := by
  rw [forceEndVoteTransaction]
  split
  · exact .refl
  · exact effects_closeVoteTransaction.2

theorem effects_tickVoteTransaction : SameSlots st (tickVoteTransaction st) ∧
    Effects E st.ids.Managed st.ids st.pending st.world (tickVoteTransaction st).world := by
  rw [tickVoteTransaction]
  split
  · exact ⟨⟨rfl, rfl⟩, .refl⟩
  · split
    · exact ⟨⟨rfl, rfl⟩, .refl⟩
    · split
      · exact ⟨⟨rfl, rfl⟩, .refl⟩
      · split
        · exact ⟨⟨rfl, rfl⟩, effects_reassertNativeVoteMarkers⟩
        · exact effects_closeVoteTransaction

theorem onlyPair_restore : w.OnlyPair p (w.restore p) := by
  intro q oc hq hc
  rw [World.restore]
  exact (spares_onLiveController hc).trans (spares_onClient hq)

/-- The gate only rewrites clients of slots that are managed by then. -/
theorem effects_releaseManagedSlots (hM : ∀ t, st.ids.Managed t → M t) :
    Effects E M ids pending st.world (releaseManagedSlots st).world := by
  refine (forSlots_invariant (x := { st with vote := resetVoteTransaction }) (I := fun st' : State =>
    (∀ t, st'.ids.Managed t → M t) ∧ Effects E M ids pending st.world st'.world) ?_ ⟨hM, .refl⟩).2
  rintro st' t ⟨hm, h⟩
  refine ⟨?_, ?_⟩
  · intro u hu
    rw [ids_releaseSlot, Identities.Managed, Identities.isManaged_unmark] at hu
    exact hm u hu.2
  · rw [releaseSlot]
    split
    · exact h
    · rename_i hmt
      rw [restoreIdentity]
      split
      · exact h
      · rename_i client hp
        have hmanaged : M t := hm t (by simpa [Identities.Managed] using hmt)
        exact h.trans (Effect.rewrite hmanaged hp onlyPair_restore).effects

theorem effects_applyMapGate {name : Bytes} (hM : ∀ t, st.ids.Managed t → M t) :
    Effects E M ids pending st.world (applyMapGate st name).world := by
  obtain ⟨gate, h⟩ | ⟨-, h⟩ := applyMapGate_cases
  · rw [h]
    exact .refl
  · rw [h]
    exact effects_releaseManagedSlots hM

theorem effects_pollMapGate (hM : ∀ t, st.ids.Managed t → M t) :
    Effects E M ids pending st.world (pollMapGate st).world := by
  rw [pollMapGate]
  split
  · exact .refl
  · exact effects_applyMapGate hM

theorem effects_applyMapGate_pollMapGate {name : Bytes} :
    Effects E st.ids.Managed ids pending st.world (pollMapGate (applyMapGate st name)).world :=
  (effects_applyMapGate fun _ ht => ht).trans (effects_pollMapGate fun _ => managed_applyMapGate)

theorem effects_moveManagedBotToSpectator :
    Effects E M ids pending w (moveManagedBotToSpectator E ids w s) := by
  rw [moveManagedBotToSpectator]
  split
  · exact .refl
  · rename_i hm
    simp only [not_or, Bool.not_eq_true', Bool.not_eq_false] at hm
    split
    · exact .refl
    · rename_i client hp
      split
      · exact .refl
      · rename_i c hc
        dsimp only
        split
        · exact .refl
        · rename_i hteam
          simp only [not_or, Bool.not_eq_true, not_and_or, ne_eq, not_not] at hteam
          cases ht : E.changeTeam c kSpectatorTeam w with
          | none => exact .refl
          | some w' =>
            have hslot : w.controllerOf s = some c := (controllerOf_eq hp).trans hc
            exact (Effect.spectate hm.2.2 hslot hteam.1 hteam.2 ht).effects

theorem drainItem_cases (E : EngineCalls) (remove : Ptr → World → World) (w : World)
    (item : PendingControllerRemoval) :
    ((drainItem E remove w item).2 = w ∨
        w.Removable E item ∧ (drainItem E remove w item).2 = w.removed E remove item.controller) ∧
      ∀ kept, (drainItem E remove w item).1 = some kept →
        kept = { item with referencedFrames := item.referencedFrames + 1 } := by
  rw [drainItem]
  split
  · exact ⟨Or.inl rfl, by simp⟩
  · rename_i current hcurrent
    split
    · exact ⟨Or.inl rfl, by simp⟩
    · rename_i hsame
      simp only [not_or, ne_eq, not_not] at hsame
      obtain ⟨rfl, hidentity, hhandle⟩ := hsame
      dsimp only
      split
      · rename_i hnone
        refine ⟨Or.inr ⟨⟨hcurrent, hhandle, hidentity, by simp [hnone]⟩, rfl⟩, by simp⟩
      · rename_i userId hsome
        have huser : (userId = 65535 ∨ userId = item.userId) → w.Removable E item :=
          fun h => ⟨hcurrent, hhandle, hidentity, by simpa [hsome] using h⟩
        split
        · exact ⟨Or.inr ⟨huser (Or.inl ‹_›), rfl⟩, by simp⟩
        · split
          · exact ⟨Or.inl rfl, by simp⟩
          · rename_i hsame
            split
            · exact ⟨Or.inl rfl, by simp⟩
            · exact ⟨Or.inr ⟨huser (Or.inr (not_not.mp hsame)), rfl⟩, by simp⟩

theorem effects_shrinkTrailingLeftoverClients :
    Effects E M ids pending w (shrinkTrailingLeftoverClients ids w) := by
  rw [shrinkTrailingLeftoverClients]
  split
  · exact .refl
  · exact (Effect.shrink (keepTrailing_spec ids w w.clientListCount).2).effects

/-- A drain's items are those queued, at most later in their wait. -/
theorem effects_drainPendingControllerRemovals :
    (∀ item ∈ (drainPendingControllerRemovals E ids pending w).1,
      ∃ n, { item with referencedFrames := n } ∈ pending) ∧
    Effects E M ids pending w (drainPendingControllerRemovals E ids pending w).2 := by
  rw [drainPendingControllerRemovals]
  split
  · exact ⟨by simp, .refl⟩
  · split
    · exact ⟨by simp, effects_shrinkTrailingLeftoverClients⟩
    · rename_i remove hr
      have hguard : Machine.Guarded (drainStep E remove) (fun _ item => item ∈ pending) ([], w) pending :=
        Machine.guarded_of_forall fun item hitem _ => hitem
      have hdrained : (∀ item ∈ (pending.foldl (drainStep E remove) ([], w)).1,
          ∃ n, { item with referencedFrames := n } ∈ pending) ∧
          Effects E M ids pending w (pending.foldl (drainStep E remove) ([], w)).2 := by
        refine Machine.run_invariant (I := fun y : List PendingControllerRemoval × World =>
          (∀ item ∈ y.1, ∃ n, { item with referencedFrames := n } ∈ pending) ∧
            Effects E M ids pending w y.2) ?_ hguard ⟨by simp, .refl⟩
        rintro y item hitem ⟨hqueued, h⟩
        obtain ⟨hworld, hkept⟩ := drainItem_cases E remove y.2 item
        refine ⟨fun kept hmem => ?_, ?_⟩
        · rw [drainStep] at hmem
          rcases List.mem_append.mp hmem with hmem | hmem
          · exact hqueued kept hmem
          · rw [hkept kept (Option.mem_toList.mp hmem)]
            exact ⟨item.referencedFrames, hitem⟩
        · rw [drainStep]
          dsimp only
          rcases hworld with heq | ⟨hremovable, heq⟩
          · rwa [heq]
          · rw [heq]
            exact h.trans (Effect.drain (n := item.referencedFrames) hitem hremovable hr).effects
      exact ⟨hdrained.1, hdrained.2.trans effects_shrinkTrailingLeftoverClients⟩

theorem effects_reapOrphanControllers :
    Effects E M ids pending w (reapOrphanControllers E ids w) := by
  rw [reapOrphanControllers]
  split
  · exact .refl
  · rename_i remove hr
    split
    · exact .refl
    · refine forSlots_invariant (I := fun w' => Effects E M ids pending w w') ?_ .refl
      intro w' t h
      rw [reapOrphan]
      split
      · exact h
      · rename_i c hc
        dsimp only
        split
        · exact h
        · rename_i hleft
          simp only [not_or, Bool.not_eq_true', Bool.not_eq_false, not_and_or, ne_eq, not_not] at hleft
          exact h.trans (Effect.reap hc hleft.1 hleft.2 hr).effects

theorem effects_reapAfterPopulationCommand (st : State) :
    Effects E M st.ids st.pending st.world (reapAfterPopulationCommand E st).world := by
  obtain ⟨hqueued, hfirst⟩ := @effects_drainPendingControllerRemovals E st.ids st.world M st.pending
  have hsecond := (@effects_drainPendingControllerRemovals E st.ids
    (drainPendingControllerRemovals E st.ids st.pending st.world).2 M
    (drainPendingControllerRemovals E st.ids st.pending st.world).1).2
  exact (hfirst.trans (hsecond.mono (fun _ ht => ht) rfl hqueued)).trans effects_reapOrphanControllers

theorem effects_kickManagedBotByUserId (st : State) :
    Effects E M st.ids pending st.world (kickManagedBotByUserId st s).world := by
  rw [kickManagedBotByUserId]
  split
  · exact .refl
  · dsimp only
    split
    · exact .refl
    · rw [neutralizeCollidingLeftoverUserIds]
      split
      · exact .refl
      · refine forSlots_invariant (I := fun w' => Effects E M st.ids pending st.world w') ?_ .refl
        intro w' t h
        rw [neutralizeSlot]
        split
        · exact h
        · split
          · exact h
          · rename_i p hp
            split
            · exact h
            · rename_i hleft
              simp only [not_or, Bool.not_eq_true, ne_eq, not_not] at hleft
              exact h.trans (Effect.neutralize hleft.1 hp hleft.2.1 hleft.2.2.1).effects

theorem effects_kickNamedBot :
    Effects E st.ids.Managed st.ids st.pending st.world (kickNamedBot E st s).world := by
  have hmove : Effects E st.ids.Managed st.ids st.pending st.world
      (moveManagedBotToSpectator E st.ids st.world s) := effects_moveManagedBotToSpectator
  unfold kickNamedBot
  dsimp only
  split
  · have hbegin := effects_beginVoteTransactionForSlot (E := E) (s := s) { st with
      world := moveManagedBotToSpectator E st.ids st.world s }
    have hids : (beginVoteTransactionForSlot { st with
        world := moveManagedBotToSpectator E st.ids st.world s } s).ids = st.ids := by
      rw [beginVoteTransactionForSlot]
      dsimp only
      split <;> rfl
    generalize beginVoteTransactionForSlot { st with
      world := moveManagedBotToSpectator E st.ids st.world s } s = st₁ at hbegin hids ⊢
    have hkick := @effects_kickManagedBotByUserId E s st.ids.Managed st.pending { st₁ with
      populationDepth := st₁.populationDepth + 1 }
    refine (hmove.trans hbegin).trans ?_
    exact hkick.mono (fun _ ht => ht) (by rw [hids]) fun item hitem => ⟨item.referencedFrames, hitem⟩
  · exact hmove.trans (effects_kickManagedBotByUserId { st with
      world := moveManagedBotToSpectator E st.ids st.world s })

theorem effects_kickGroup {name target : Bytes} :
    Effects E st.ids.Managed st.ids st.pending st.world (kickGroup E st name target).world := by
  have hmoved : Effects E st.ids.Managed st.ids st.pending st.world
      (forSlots (moveManagedBotToSpectator E st.ids) st.world) :=
    forSlots_invariant (I := fun w' => Effects E st.ids.Managed st.ids st.pending st.world w')
      (fun w' t h => h.trans effects_moveManagedBotToSpectator) .refl
  unfold kickGroup
  dsimp only
  split
  · split
    · exact hmoved.trans (effects_beginVoteTransaction { st with
        world := forSlots (moveManagedBotToSpectator E st.ids) st.world })
    · exact hmoved
  · split
    · exact effects_beginVoteTransaction _
    · exact .refl

end Functions

section Hooks

theorem effects_onClientConnected {name : Option Bytes} {xuid : UInt64} {fakePlayer : Bool} :
    Effects E (fun t => t = s ∧ xuid = 0 ∧ fakePlayer = true) ids pending st.world
      (onClientConnected st s name xuid fakePlayer).world := by
  rcases onClientConnected_cases st s name xuid fakePlayer with
    ⟨-, h⟩ | ⟨-, -, -, ⟨-, h⟩ | ⟨⟨-, hx, hfake⟩, h⟩⟩
  · rw [h]
    exact .refl
  · rw [h, world_releaseOccupant]
    exact .refl
  · rw [h, ← world_releaseOccupant]
    rcases assignIdentity_cases (releaseOccupant st s) s with ⟨_, _, -, ha⟩ | ⟨i, bots, r', -, ha⟩
    · rw [ha]
      exact .refl
    · rw [ha]
      have h := @effects_applyDisguise E ids s pending
        (markIdentity (releaseOccupant st s) s i bots r') i
      exact h.of_slots fun t ht => ⟨ht, hx, hfake⟩

theorem effects_clientDisconnect {reason : Int} :
    Effects E st.ids.Managed st.ids pending st.world (clientDisconnect E st s reason).world := by
  have hmove : Effects E st.ids.Managed st.ids pending st.world (worldAtDisconnect E st s reason) := by
    rw [worldAtDisconnect]
    split
    · exact effects_moveManagedBotToSpectator
    · exact .refl
  rcases clientDisconnect_cases E st s reason with ⟨-, hd⟩ | ⟨⟨-, -, -, hm⟩, _, hd⟩
  · rw [hd]
    exact .refl
  · rw [hd]
    dsimp only [restoreIdentity]
    cases hp : (worldAtDisconnect E st s reason).resolveClientBySlot s with
    | none => exact hmove
    | some client => exact hmove.trans (Effect.rewrite hm hp onlyPair_restore).effects

theorem effects_dispatchConCommandPre {command : Option Bytes} {arguments : List Bytes} :
    Effects E st.ids.Managed st.ids st.pending st.world
      (dispatchConCommandPre E st command arguments).world := by
  rcases dispatchConCommandPre_cases E st command arguments with
    h | ⟨-, h | ⟨s, h⟩ | ⟨name, target, h⟩ | ⟨-, -, h⟩⟩
  · rw [h]
    exact .refl
  · rw [h]
    exact effects_beginVoteTransaction _
  · rw [h]
    exact effects_kickNamedBot
  · rw [h]
    exact effects_kickGroup
  · rw [h]
    exact effects_forceEndVoteTransaction

theorem effects_dispatchConCommandPost {command : Option Bytes} {arguments : List Bytes} :
    Effects E st.ids.Managed st.ids st.pending st.world
      (dispatchConCommandPost E st command arguments).world := by
  rcases dispatchConCommandPost_cases E st command arguments with
    h | ⟨-, h | ⟨arg, -, h⟩⟩ | ⟨-, h | ⟨st₁, hkick, h⟩⟩
  · rw [h]
    exact .refl
  · rw [h]
    exact effects_pollMapGate fun _ ht => ht
  · rw [h, hintMapGate]
    split
    · exact effects_pollMapGate fun _ ht => ht
    · exact effects_applyMapGate_pollMapGate
  · rw [h]
    exact .refl
  · have hframe : st₁.ids = st.ids ∧ st₁.pending = st.pending ∧ st₁.world = st.world := by
      rcases hkick with rfl | rfl
      · exact ⟨rfl, rfl, rfl⟩
      · rw [endKickCommand]
        split
        · exact ⟨rfl, rfl, rfl⟩
        · dsimp only
          split <;> exact ⟨rfl, rfl, rfl⟩
    rw [← hframe.1, ← hframe.2.1, ← hframe.2.2]
    rcases h with h | h | ⟨-, h⟩
    · rw [h]
      exact .refl
    · rw [h]
      exact effects_reapAfterPopulationCommand st₁
    · have hpass : SameSlots st₁ (applyPendingDisguises st₁) ∧
          Effects E st₁.ids.Managed st₁.ids st₁.pending st₁.world (applyPendingDisguises st₁).world := by
        rw [applyPendingDisguises]
        split
        · exact ⟨⟨rfl, rfl⟩, .refl⟩
        · exact effects_applyPending st₁
      rw [h]
      exact hpass.2.trans (hpass.1.effects (effects_reapAfterPopulationCommand (applyPendingDisguises st₁)))

theorem effects_gameFrame {nowSec : Float} :
    Effects E st.ids.Managed st.ids st.pending st.world (gameFrame E st nowSec).world := by
  rw [gameFrame]
  split
  · exact effects_pollMapGate fun _ ht => ht
  · rename_i hs
    obtain ⟨gate, he⟩ | ⟨-, he⟩ := @pollMapGate_cases st
    · rw [he, world_jitterPings]
      obtain ⟨hsame, htick⟩ := @effects_tickVoteTransaction E { st with gate := gate }
      have hdrain := (@effects_drainPendingControllerRemovals E
        (tickVoteTransaction { st with gate := gate }).ids
        (tickVoteTransaction { st with gate := gate }).world
        (tickVoteTransaction { st with gate := gate }).ids.Managed
        (tickVoteTransaction { st with gate := gate }).pending).2
      exact htick.trans (hsame.effects hdrain)
    · rw [he] at hs
      exact absurd rfl hs

/-- Every hook leaves the engine as a few effects do, each with its guard met when it happens. -/
theorem effects_runHook (E : EngineCalls) (st : State) (hook : Hook) :
    Effects E (st.mayWrite hook) st.ids st.pending st.world (runHook E st hook).world := by
  cases hook with
  | onClientConnected slot name xuid fakePlayer => exact effects_onClientConnected
  | clientPutInServer slot =>
    rw [runHook, clientPutInServer]
    split
    · exact .refl
    · exact effects_applyDisguiseIfPending
  | clientDisconnect slot reason => exact effects_clientDisconnect
  | dispatchConCommandPre command arguments => exact effects_dispatchConCommandPre
  | dispatchConCommandPost command arguments => exact effects_dispatchConCommandPost
  | gameFrame nowSec => exact effects_gameFrame
  | onLevelInit mapName =>
    cases mapName with
    | none => exact effects_pollMapGate fun _ ht => ht
    | some name =>
      rw [runHook]
      simp only [onLevelInit]
      split
      · exact effects_applyMapGate_pollMapGate
      · exact effects_pollMapGate fun _ ht => ht

end Hooks

end Botid
