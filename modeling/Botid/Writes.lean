import Botid.HookRules

/-! Whose client memory the plugin writes: frames for every function, up to whole hooks. -/
namespace Botid

variable {st : State} {w w' w₁ w₂ w₃ : World} {s t : Int} {p q client : Ptr} {f : ByteMem.Mem → ByteMem.Mem}
  {ids : Identities} {E : EngineCalls} {M N K : Int → Prop}

namespace World

/-- Nothing but the memory of one client, and of controllers, was written. -/
def OnlyClient (p : Ptr) (w w' : World) : Prop :=
  w.OnlyMemory w' ∧ ∀ q, q ≠ p → w'.client q = w.client q

theorem OnlyClient.refl : OnlyClient p w w := ⟨.refl, fun _ _ => rfl⟩

theorem OnlyClient.trans (h : OnlyClient p w₁ w₂) (h' : OnlyClient p w₂ w₃) :
    OnlyClient p w₁ w₃ :=
  ⟨h.1.trans h'.1, fun q hq => (h'.2 q hq).trans (h.2 q hq)⟩

theorem onlyClient_onClient : OnlyClient p w (w.onClient p f) :=
  ⟨onlyMemory_onClient, fun _ hq => client_onClient_of_ne hq⟩

theorem onlyClient_onController : OnlyClient p w (w.onController q f) :=
  ⟨onlyMemory_onController, fun _ _ => rfl⟩

theorem onlyClient_onLiveController {controller : Option Ptr} :
    OnlyClient p w (w.onLiveController controller f) :=
  ⟨onlyMemory_onLiveController, fun _ _ => by rw [client_onLiveController]⟩

theorem onlyClient_disguise {steamId : UInt64} : OnlyClient p w (w.disguise p steamId) := by
  rw [disguise]
  exact onlyClient_onClient.trans onlyClient_onLiveController

theorem onlyClient_restore : OnlyClient p w (w.restore p) := by
  rw [restore]
  exact onlyClient_onLiveController.trans onlyClient_onClient

theorem onlyClient_scanAndZeroSteamIdCopies {snapshot : VoteSlotSnapshot} {controller : Option Ptr} :
    OnlyClient p w (scanAndZeroSteamIdCopies w snapshot p controller).2 := by
  rw [scanAndZeroSteamIdCopies]
  split
  · exact .refl
  · cases controller with
    | none =>
      dsimp only
      exact onlyClient_onClient
    | some c =>
      dsimp only
      exact onlyClient_onClient.trans onlyClient_onController

theorem onlyClient_applyNativeVoteMarkers (w : World) (p : Ptr) (snapshot : VoteSlotSnapshot)
    (controller : Option Ptr) :
    OnlyClient p w (applyNativeVoteMarkers w snapshot p controller).2 := by
  unfold applyNativeVoteMarkers
  dsimp only
  exact (onlyClient_onClient.trans onlyClient_onLiveController).trans
    (onlyClient_scanAndZeroSteamIdCopies.trans onlyClient_onClient)

theorem onlyClient_restoreSteamIdCopies {snapshot : VoteSlotSnapshot} {controller : Option Ptr} :
    OnlyClient p w (restoreSteamIdCopies w snapshot p controller) := by
  apply Machine.run_invariant_of_step (I := OnlyClient p w) _ .refl
  intro w' copy h
  apply h.trans
  unfold restoreCopy
  split
  · split
    · exact .refl
    · exact onlyClient_onLiveController
  · split
    · exact .refl
    · exact onlyClient_onClient

theorem onlyClient_replayDisguise {snapshot : VoteSlotSnapshot} :
    OnlyClient p w (replayDisguise w snapshot p) := by
  rw [replayDisguise]
  exact (onlyClient_onClient.trans onlyClient_onLiveController).trans onlyClient_restoreSteamIdCopies

/-- Marker bytes are written only in clients of slots in `M`; no slot gains a client, and the
slots in `K` keep theirs. -/
structure WritesWithin (M K : Int → Prop) (w w' : World) : Prop where
  keeps : ∀ p, (∀ t, M t → w.resolveClientBySlot t ≠ some p) →
    ∀ a, Marker a → w'.client p a = w.client p a
  resolves : ∀ t p, w'.resolveClientBySlot t = some p → w.resolveClientBySlot t = some p
  stays : ∀ t, K t → w'.resolveClientBySlot t = w.resolveClientBySlot t

theorem WritesWithin.refl : WritesWithin M K w w :=
  ⟨fun _ _ _ _ => rfl, fun _ _ h => h, fun _ _ => rfl⟩

theorem WritesWithin.trans (h : WritesWithin M K w₁ w₂) (h' : WritesWithin M K w₂ w₃) :
    WritesWithin M K w₁ w₃ := by
  refine ⟨?_, ?_, ?_⟩
  · intro p hp a ha
    rw [h'.keeps p (fun t ht hc => hp t ht (h.resolves t p hc)) a ha, h.keeps p hp a ha]
  · exact fun t p hc => h.resolves t p (h'.resolves t p hc)
  · exact fun t ht => (h'.stays t ht).trans (h.stays t ht)

theorem WritesWithin.mono (h : WritesWithin M K w w') (hMN : ∀ t, M t → N t) :
    WritesWithin N K w w' :=
  { h with keeps := fun p hp a ha => h.keeps p (fun t ht => hp t (hMN t ht)) a ha }

/-- Writing one slot's client is writing within that slot. -/
theorem OnlyClient.writesWithin (h : OnlyClient p w w') (hs : w.resolveClientBySlot s = some p) :
    WritesWithin (· = s) K w w' := by
  refine ⟨?_, ?_, ?_⟩
  · intro q hq a _
    have hne : q ≠ p := by
      rintro rfl
      exact hq s rfl hs
    rw [h.2 q hne]
  · intro t q hc
    rwa [h.1.resolveClientBySlot] at hc
  · intro t _
    exact h.1.resolveClientBySlot

/-- A change outside the client list and the clients' marker bytes. -/
theorem writesWithin_of_eq (hc : ∀ p a, Marker a → w'.client p a = w.client p a)
    (hr : ∀ t, w'.resolveClientBySlot t = w.resolveClientBySlot t) : WritesWithin M K w w' :=
  ⟨fun p _ a ha => hc p a ha, fun t _ h => hr t ▸ h, fun t _ => hr t⟩

theorem writesWithin_onController : WritesWithin M K w (w.onController p f) :=
  writesWithin_of_eq (fun _ _ _ => rfl) fun _ => rfl

end World

open World

/-- The engine's own functions leave the client list and the clients' marker bytes alone. -/
structure EngineCalls.KeepsClients (E : EngineCalls) : Prop where
  changeTeam_marker : ∀ c n w w', E.changeTeam c n w = some w' →
    ∀ p a, Marker a → w'.client p a = w.client p a
  changeTeam_resolve : ∀ c n w w', E.changeTeam c n w = some w' →
    ∀ t, w'.resolveClientBySlot t = w.resolveClientBySlot t
  utilRemove_marker : ∀ remove, E.utilRemove = some remove →
    ∀ c w p a, Marker a → (remove c w).client p a = w.client p a
  utilRemove_resolve : ∀ remove, E.utilRemove = some remove →
    ∀ c w t, (remove c w).resolveClientBySlot t = w.resolveClientBySlot t

theorem EngineCalls.keepsClients_idle : EngineCalls.idle.KeepsClients := by
  constructor <;> simp [EngineCalls.idle]

/-- Slots that are managed, as a set. -/
def Identities.Managed (ids : Identities) (t : Int) : Prop := ids.isManaged t = true

theorem writesWithin_captureOneManagedSlot {v : Vote} :
    WritesWithin (fun t => t = s ∧ ids.Managed t) K w (captureOneManagedSlot ids v w s).2.2 := by
  rw [captureOneManagedSlot]
  split
  · exact .refl
  · dsimp only
    split
    · exact .refl
    · rename_i hm
      split
      · exact .refl
      · rename_i client hc
        refine ((onlyClient_applyNativeVoteMarkers _ _ _ _).writesWithin hc).mono ?_
        rintro t rfl
        exact ⟨rfl, by simpa [Identities.Managed] using hm⟩

theorem writesWithin_captureManagedSlots {v : Vote} :
    WritesWithin ids.Managed K w (captureManagedSlots ids v w).2 := by
  rw [captureManagedSlots]
  refine forSlots_invariant (I := fun p : Vote × World => WritesWithin ids.Managed K w p.2) ?_ .refl
  intro p t h
  split
  · exact h.trans (writesWithin_captureOneManagedSlot.mono fun _ ht => ht.2)
  · exact h

theorem writesWithin_reassertSlot {v : Vote} :
    WritesWithin ids.Managed K w (reassertSlot ids (v, w) s).2 := by
  unfold reassertSlot
  dsimp only
  split
  · exact .refl
  · rename_i hm
    split
    · exact .refl
    · rename_i client hc
      split
      · exact .refl
      · refine ((onlyClient_applyNativeVoteMarkers _ _ _ _).writesWithin hc).mono ?_
        rintro t rfl
        simpa [Identities.Managed] using (not_or.mp hm).2

theorem writesWithin_reassertNativeVoteMarkers {v : Vote} :
    WritesWithin ids.Managed K w (reassertNativeVoteMarkers ids v w).2 := by
  rw [reassertNativeVoteMarkers]
  split
  · exact .refl
  · refine forSlots_invariant (I := fun p : Vote × World => WritesWithin ids.Managed K w p.2) ?_ .refl
    exact fun p t h => h.trans writesWithin_reassertSlot

theorem writesWithin_restoreSlot {v : Vote} :
    WritesWithin ids.Managed K w (restoreSlot ids (v, w) s).2 := by
  unfold restoreSlot
  dsimp only
  split
  · exact .refl
  · split
    · exact .refl
    · rename_i hm
      split
      · exact .refl
      · rename_i client hc
        split
        · exact .refl
        · refine (onlyClient_replayDisguise.writesWithin hc).mono ?_
          rintro t rfl
          simpa [Identities.Managed] using hm

theorem writesWithin_applyDisguise (st : State) {i : Nat} :
    WritesWithin (· = s) K st.world (applyDisguise st s i).world := by
  rcases applyDisguise_cases st s i with h | ⟨b, -, -, -, ⟨-, h⟩ | ⟨client, -, hc, h⟩⟩
  · rw [h]
    exact .refl
  · rw [h]
    exact .refl
  · rw [h]
    exact onlyClient_disguise.writesWithin hc

theorem writesWithin_applyDisguiseIfPending :
    WritesWithin st.ids.Managed K st.world (applyDisguiseIfPending st s).world := by
  rcases applyDisguiseIfPending_cases st s with h | ⟨i, hold, h⟩
  · rw [h]
    exact .refl
  · rw [h]
    apply (writesWithin_applyDisguise _).mono
    rintro t rfl
    exact hold.isManaged

/-- The disguise pass over all slots writes managed clients only. -/
theorem writesWithin_applyPending (st : State) :
    WritesWithin st.ids.Managed K st.world (forSlots applyDisguiseIfPending st).world := by
  refine (forSlots_invariant (I := fun st' : State =>
    st'.ids.slots = st.ids.slots ∧ WritesWithin st.ids.Managed K st.world st'.world)
    ?_ ⟨rfl, .refl⟩).2
  rintro st' t ⟨hs, h⟩
  refine ⟨slots_applyDisguiseIfPending.trans hs, h.trans ?_⟩
  apply writesWithin_applyDisguiseIfPending.mono
  intro u hu
  rwa [Identities.Managed, Identities.isManaged_congr hs] at hu

theorem writesWithin_restorePlayerIdentity (st : State) :
    WritesWithin st.ids.Managed K st.world (restorePlayerIdentity st).world := by
  rw [restorePlayerIdentity]
  split
  · exact .refl
  · have hrestored : WritesWithin st.ids.Managed K st.world
        (forSlots (restoreSlot st.ids) ({ st.vote with valid := false }, st.world)).2 :=
      forSlots_invariant (I := fun p : Vote × World => WritesWithin st.ids.Managed K st.world p.2)
        (fun p t h => h.trans writesWithin_restoreSlot) .refl
    dsimp only
    generalize forSlots (restoreSlot st.ids) ({ st.vote with valid := false }, st.world) =
      restored at hrestored ⊢
    exact hrestored.trans
      (writesWithin_applyPending { st with vote := restored.1, world := restored.2 })

theorem writesWithin_closeVoteTransaction :
    WritesWithin st.ids.Managed K st.world (closeVoteTransaction st).world :=
  writesWithin_restorePlayerIdentity { st with
    vote := { st.vote with holdFramesRemaining := 0, endScheduled := false, depth := 0 } }

theorem writesWithin_beginVoteTransaction (st : State) :
    WritesWithin st.ids.Managed K st.world (beginVoteTransaction st).world := by
  rw [beginVoteTransaction]
  split
  · exact writesWithin_captureManagedSlots
  · exact .refl

theorem writesWithin_beginVoteTransactionForSlot (st : State) :
    WritesWithin (fun t => t = s ∧ st.ids.Managed t) K st.world
      (beginVoteTransactionForSlot st s).world := by
  rw [beginVoteTransactionForSlot]
  split
  · exact writesWithin_captureOneManagedSlot
  · exact .refl

theorem writesWithin_forceEndVoteTransaction :
    WritesWithin st.ids.Managed K st.world (forceEndVoteTransaction st).world := by
  rw [forceEndVoteTransaction]
  split
  · exact .refl
  · exact writesWithin_closeVoteTransaction

theorem writesWithin_tickVoteTransaction :
    WritesWithin st.ids.Managed K st.world (tickVoteTransaction st).world := by
  rw [tickVoteTransaction]
  split
  · exact .refl
  · split
    · exact .refl
    · split
      · exact .refl
      · split
        · exact writesWithin_reassertNativeVoteMarkers
        · exact writesWithin_closeVoteTransaction

theorem writesWithin_releaseManagedSlots :
    WritesWithin st.ids.Managed K st.world (releaseManagedSlots st).world := by
  refine (forSlots_invariant (x := { st with vote := resetVoteTransaction }) (I := fun st' : State =>
    (∀ t, st'.ids.Managed t → st.ids.Managed t) ∧ WritesWithin st.ids.Managed K st.world st'.world)
    ?_ ⟨fun _ h => h, .refl⟩).2
  rintro st' t ⟨hm, h⟩
  refine ⟨?_, ?_⟩
  · intro u hu
    rw [ids_releaseSlot, Identities.Managed, Identities.isManaged_unmark] at hu
    exact hm u hu.2
  · rw [releaseSlot]
    split
    · exact h
    · rename_i hmt
      rw [restoreIdentity]
      split
      · exact h
      · rename_i client hc
        refine h.trans ((onlyClient_restore.writesWithin hc).mono ?_)
        rintro u rfl
        exact hm u (by simpa [Identities.Managed] using hmt)

theorem writesWithin_applyMapGate {name : Bytes} :
    WritesWithin st.ids.Managed K st.world (applyMapGate st name).world := by
  obtain ⟨gate, h⟩ | ⟨-, h⟩ := applyMapGate_cases
  · rw [h]
    exact .refl
  · rw [h]
    exact writesWithin_releaseManagedSlots

variable {c : Ptr} {remove : Ptr → World → World} {pending : List PendingControllerRemoval}

theorem EngineCalls.KeepsClients.changeTeam (hE : E.KeepsClients) {n : Nat}
    (h : WritesWithin M K w w') : WritesWithin M K w ((E.changeTeam c n w).getD w') := by
  cases ht : E.changeTeam c n w with
  | none => exact h
  | some w'' =>
    exact writesWithin_of_eq (hE.changeTeam_marker _ _ _ _ ht) (hE.changeTeam_resolve _ _ _ _ ht)

theorem EngineCalls.KeepsClients.utilRemove (hE : E.KeepsClients) (hr : E.utilRemove = some remove) :
    WritesWithin M K w (remove c w) :=
  writesWithin_of_eq (hE.utilRemove_marker _ hr c w) (hE.utilRemove_resolve _ hr c w)

theorem writesWithin_moveManagedBotToSpectator (hE : E.KeepsClients) :
    WritesWithin M K w (moveManagedBotToSpectator E ids w s) := by
  rw [moveManagedBotToSpectator]
  split
  · exact .refl
  · split
    · exact .refl
    · split
      · exact .refl
      · dsimp only
        split
        · exact .refl
        · exact hE.changeTeam .refl

theorem writesWithin_detachControllerFromTeam (hE : E.KeepsClients) :
    WritesWithin M K w (detachControllerFromTeam E w c) := by
  rw [detachControllerFromTeam]
  split
  · exact .refl
  · split
    · exact writesWithin_onController
    · exact hE.changeTeam writesWithin_onController

theorem writesWithin_drainItem (hE : E.KeepsClients) (hr : E.utilRemove = some remove)
    {item : PendingControllerRemoval} :
    WritesWithin M K w (drainItem E remove w item).2 := by
  have hremoved : ∀ c, WritesWithin M K w (remove c (detachControllerFromTeam E w c)) :=
    fun c => (writesWithin_detachControllerFromTeam hE).trans (hE.utilRemove hr)
  rw [drainItem]
  split
  · exact .refl
  · split
    · exact .refl
    · dsimp only
      split
      · exact hremoved _
      · split
        · exact hremoved _
        · split
          · exact .refl
          · split
            · exact .refl
            · exact hremoved _

/-- The tail that `ShrinkTrailingLeftoverClients` cuts off is all leftovers. -/
theorem keepTrailing_spec (ids : Identities) (w : World) (n : Nat) : keepTrailing ids w n ≤ n ∧
    ∀ k, keepTrailing ids w n ≤ k → k < n → isTrailingLeftoverSlot ids w k = true := by
  induction n with
  | zero => exact ⟨Nat.le_refl 0, fun k _ h => absurd h (Nat.not_lt_zero k)⟩
  | succ n ih =>
    rw [keepTrailing]
    split
    · rename_i hn
      refine ⟨by omega, fun k hk hkn => ?_⟩
      by_cases hkn' : k = n
      · rwa [hkn']
      · exact ih.2 k hk (by omega)
    · exact ⟨Nat.le_refl _, fun k h1 h2 => absurd h2 (by omega)⟩

theorem resolveClientBySlot_shrinkClientListTo {n : Nat} :
    (w.shrinkClientListTo n).resolveClientBySlot t =
      if w.clients.length ≤ n ∨ t < n then w.resolveClientBySlot t else none := by
  rw [shrinkClientListTo]
  by_cases h : (!w.serverAlive) = true ∨ 256 < w.clients.length ∨ w.clients.length ≤ n
  · rw [if_pos h]
    rcases h with h | h | h
    · simp [resolveClientBySlot, h]
    · simp [resolveClientBySlot, h]
    · rw [if_pos (Or.inl h)]
  · rw [if_neg h]
    simp only [not_or, Nat.not_lt, Nat.not_le, Bool.not_eq_true, Bool.not_eq_false'] at h
    obtain ⟨ha, h256, hn⟩ := h
    have hlen : (w.clients.take n).length = n := by
      rw [List.length_take]
      omega
    simp only [resolveClientBySlot, ha, hlen, Bool.not_true, Bool.false_eq_true, if_false]
    by_cases htn : t < n
    · rw [if_pos (Or.inr htn)]
      by_cases ht0 : t < 0
      · rw [if_pos (by omega), if_pos (by omega)]
      · rw [if_neg (by omega), if_neg (by omega), List.getElem?_take_of_lt (by omega)]
    · rw [if_pos (by omega), if_neg (by omega)]

theorem writesWithin_shrinkTrailingLeftoverClients :
    WritesWithin M ids.Managed w (shrinkTrailingLeftoverClients ids w) := by
  rw [shrinkTrailingLeftoverClients]
  split
  · exact .refl
  · refine ⟨?_, ?_, ?_⟩
    · intro p _ a _
      rw [shrinkClientListTo]
      split <;> rfl
    · intro t p h
      rw [resolveClientBySlot_shrinkClientListTo] at h
      split at h
      · exact h
      · simp at h
    · intro t ht
      rw [resolveClientBySlot_shrinkClientListTo]
      split
      · rfl
      · rename_i h
        cases hc : w.resolveClientBySlot t with
        | none => rfl
        | some p =>
          -- a managed slot with a client is no leftover, so the cut stays above it
          obtain ⟨ht0, hget⟩ := resolveClientBySlot_eq_some hc
          have hlt := (List.getElem?_eq_some_iff.mp hget).1
          have hcount := clientListCount_of_resolve hc
          have := (keepTrailing_spec ids w w.clientListCount).2 t.toNat
            (by omega) (by omega)
          have ht' : ids.isManaged t = true := ht
          simp [isTrailingLeftoverSlot, leftoverOrEmpty, Int.toNat_of_nonneg ht0, hc, ht'] at this

theorem writesWithin_drainPendingControllerRemovals (hE : E.KeepsClients) :
    WritesWithin M ids.Managed w (drainPendingControllerRemovals E ids pending w).2 := by
  rw [drainPendingControllerRemovals]
  split
  · exact .refl
  · split
    · exact writesWithin_shrinkTrailingLeftoverClients
    · rename_i remove hr
      have hdrained : WritesWithin M ids.Managed w
          (pending.foldl (drainStep E remove) ([], w)).2 :=
        Machine.run_invariant_of_step
          (I := fun p : List PendingControllerRemoval × World => WritesWithin M ids.Managed w p.2)
          (fun p item h => h.trans (writesWithin_drainItem hE hr)) .refl
      exact hdrained.trans writesWithin_shrinkTrailingLeftoverClients

theorem writesWithin_reapOrphan (hE : E.KeepsClients) (hr : E.utilRemove = some remove) :
    WritesWithin M K w (reapOrphan E ids remove w s) := by
  rw [reapOrphan]
  split
  · exact .refl
  · dsimp only
    split
    · exact .refl
    · split
      · exact writesWithin_detachControllerFromTeam hE
      · exact (writesWithin_detachControllerFromTeam hE).trans (hE.utilRemove hr)

theorem writesWithin_reapOrphanControllers (hE : E.KeepsClients) :
    WritesWithin M K w (reapOrphanControllers E ids w) := by
  rw [reapOrphanControllers]
  split
  · exact .refl
  · split
    · exact .refl
    · exact forSlots_invariant (I := fun w' => WritesWithin M K w w')
        (fun w' t h => h.trans (writesWithin_reapOrphan hE ‹_›)) .refl

theorem writesWithin_neutralizeSlot {keepSlot : Int} {userId : UInt16} :
    WritesWithin M K w (neutralizeSlot ids keepSlot userId w s) := by
  rw [neutralizeSlot]
  split
  · exact .refl
  · split
    · exact .refl
    · rename_i client _
      split
      · exact .refl
      · apply writesWithin_of_eq
        · intro p a ha
          by_cases hp : p = client
          · subst hp
            rw [client_onClient_self, writeUserId_marker ha]
          · rw [client_onClient_of_ne hp]
        · exact fun _ => rfl

theorem writesWithin_neutralizeCollidingLeftoverUserIds {keepSlot : Int} {userId : UInt16} :
    WritesWithin M K w (neutralizeCollidingLeftoverUserIds ids w keepSlot userId) := by
  rw [neutralizeCollidingLeftoverUserIds]
  split
  · exact .refl
  · exact forSlots_invariant (I := fun w' => WritesWithin M K w w')
      (fun w' t h => h.trans writesWithin_neutralizeSlot) .refl

theorem writesWithin_kickManagedBotByUserId :
    WritesWithin M K st.world (kickManagedBotByUserId st s).world := by
  rw [kickManagedBotByUserId]
  split
  · exact .refl
  · dsimp only
    split
    · exact .refl
    · exact writesWithin_neutralizeCollidingLeftoverUserIds

theorem writesWithin_reapAfterPopulationCommand (hE : E.KeepsClients) :
    WritesWithin M st.ids.Managed st.world (reapAfterPopulationCommand E st).world :=
  ((writesWithin_drainPendingControllerRemovals hE).trans
    (writesWithin_drainPendingControllerRemovals hE)).trans (writesWithin_reapOrphanControllers hE)

theorem writesWithin_kickNamedBot (hE : E.KeepsClients) :
    WritesWithin st.ids.Managed K st.world (kickNamedBot E st s).world := by
  have hmove : WritesWithin st.ids.Managed K st.world
      (moveManagedBotToSpectator E st.ids st.world s) := writesWithin_moveManagedBotToSpectator hE
  unfold kickNamedBot
  dsimp only
  refine .trans (hmove.trans ?_) writesWithin_kickManagedBotByUserId
  split
  · exact (writesWithin_beginVoteTransactionForSlot { st with
      world := moveManagedBotToSpectator E st.ids st.world s }).mono fun _ ht => ht.2
  · exact .refl

theorem writesWithin_kickGroup (hE : E.KeepsClients) {name target : Bytes} :
    WritesWithin st.ids.Managed K st.world (kickGroup E st name target).world := by
  have hmoved : WritesWithin st.ids.Managed K st.world
      (forSlots (moveManagedBotToSpectator E st.ids) st.world) :=
    forSlots_invariant (I := fun w' => WritesWithin st.ids.Managed K st.world w')
      (fun w' t h => h.trans (writesWithin_moveManagedBotToSpectator hE)) .refl
  unfold kickGroup
  dsimp only
  split
  · split
    · exact hmoved.trans (writesWithin_beginVoteTransaction { st with
        world := forSlots (moveManagedBotToSpectator E st.ids) st.world })
    · exact hmoved
  · split
    · exact writesWithin_beginVoteTransaction _
    · exact .refl

theorem slotsRule {slots : Int → Int} : DisguiseRule (fun r => r.ids.slots = slots) fun _ => True := by
  intro r s i b h _ _ _ _
  exact ⟨h, by simpa using h⟩

theorem managed_congr {ids' : Identities} (h : ids'.slots = ids.slots) : ids'.Managed = ids.Managed := by
  funext t
  rw [Identities.Managed, Identities.Managed, Identities.isManaged_congr h]

theorem writesWithin_pollMapGate :
    WritesWithin st.ids.Managed K st.world (pollMapGate st).world := by
  rw [pollMapGate]
  split
  · exact .refl
  · exact writesWithin_applyMapGate

/-- After a gate evaluation the managed slots are still among those of before. -/
theorem managed_applyMapGate {name : Bytes} (ht : (applyMapGate st name).ids.Managed t) :
    st.ids.Managed t := by
  obtain ⟨gate, h⟩ | ⟨-, h⟩ := applyMapGate_cases
  · rwa [h] at ht
  · have : (releaseManagedSlots st).ids.isManaged t = true := by rwa [h] at ht
    simp [isManaged_releaseManagedSlots] at this

theorem writesWithin_applyMapGate_pollMapGate {name : Bytes} :
    WritesWithin st.ids.Managed K st.world (pollMapGate (applyMapGate st name)).world :=
  writesWithin_applyMapGate.trans (writesWithin_pollMapGate.mono fun _ => managed_applyMapGate)

theorem writesWithin_onClientConnected {name : Option Bytes} {xuid : UInt64} {fakePlayer : Bool} :
    WritesWithin (fun t => t = s ∧ xuid = 0 ∧ fakePlayer = true) K st.world
      (onClientConnected st s name xuid fakePlayer).world := by
  rcases onClientConnected_cases st s name xuid fakePlayer with
    ⟨-, h⟩ | ⟨-, -, -, ⟨-, h⟩ | ⟨⟨-, hx, hfake⟩, h⟩⟩
  · rw [h]
    exact .refl
  · rw [h, world_releaseOccupant]
    exact .refl
  · rw [h, ← world_releaseOccupant]
    rcases assignIdentity_cases (releaseOccupant st s) s with ⟨_, _, -, ha⟩ | ⟨i, bots, r', -, ha⟩
    · rw [ha]
      exact .refl
    · rw [ha]
      exact (writesWithin_applyDisguise (markIdentity (releaseOccupant st s) s i bots r')).mono
        fun t ht => ⟨ht, hx, hfake⟩

theorem writesWithin_clientDisconnect (hE : E.KeepsClients) {reason : Int} :
    WritesWithin st.ids.Managed K st.world (clientDisconnect E st s reason).world := by
  have hmove : WritesWithin st.ids.Managed K st.world (worldAtDisconnect E st s reason) := by
    rw [worldAtDisconnect]
    split
    · exact writesWithin_moveManagedBotToSpectator hE
    · exact .refl
  rcases clientDisconnect_cases E st s reason with ⟨-, hd⟩ | ⟨⟨-, -, -, hm⟩, pending, hd⟩
  · rw [hd]
    exact .refl
  · rw [hd]
    dsimp only [restoreIdentity]
    cases hc : (worldAtDisconnect E st s reason).resolveClientBySlot s with
    | none => exact hmove
    | some client =>
      refine hmove.trans ((onlyClient_restore.writesWithin hc).mono ?_)
      rintro t rfl
      exact hm

theorem writesWithin_dispatchConCommandPre (hE : E.KeepsClients) {command : Option Bytes}
    {arguments : List Bytes} :
    WritesWithin st.ids.Managed K st.world (dispatchConCommandPre E st command arguments).world := by
  rcases dispatchConCommandPre_cases E st command arguments with
    h | ⟨-, h | ⟨s, h⟩ | ⟨name, target, h⟩ | ⟨-, -, h⟩⟩
  · rw [h]
    exact .refl
  · rw [h]
    exact writesWithin_beginVoteTransaction _
  · rw [h]
    exact writesWithin_kickNamedBot hE
  · rw [h]
    exact writesWithin_kickGroup hE
  · rw [h]
    exact writesWithin_forceEndVoteTransaction

theorem writesWithin_dispatchConCommandPost (hE : E.KeepsClients) {command : Option Bytes}
    {arguments : List Bytes} :
    WritesWithin st.ids.Managed st.ids.Managed st.world
      (dispatchConCommandPost E st command arguments).world := by
  rcases dispatchConCommandPost_cases E st command arguments with
    h | ⟨-, h | ⟨arg, -, h⟩⟩ | ⟨-, h | ⟨st₁, hkick, h⟩⟩
  · rw [h]
    exact .refl
  · rw [h]
    exact writesWithin_pollMapGate
  · rw [h, hintMapGate]
    split
    · exact writesWithin_pollMapGate
    · exact writesWithin_applyMapGate_pollMapGate
  · rw [h]
    exact .refl
  · have hframe : st₁.ids = st.ids ∧ st₁.world = st.world := by
      rcases hkick with rfl | rfl
      · exact ⟨rfl, rfl⟩
      · rw [endKickCommand]
        split
        · exact ⟨rfl, rfl⟩
        · dsimp only
          split <;> exact ⟨rfl, rfl⟩
    rw [← hframe.1, ← hframe.2]
    rcases h with h | h | ⟨-, h⟩
    · rw [h]
      exact .refl
    · rw [h]
      exact writesWithin_reapAfterPopulationCommand hE
    · have hslots : (applyPendingDisguises st₁).ids.slots = st₁.ids.slots :=
        applyPendingDisguises_rule slotsRule (rfl : st₁.registry.ids.slots = _)
      have hpass : WritesWithin st₁.ids.Managed st₁.ids.Managed st₁.world
          (applyPendingDisguises st₁).world := by
        rw [applyPendingDisguises]
        split
        · exact .refl
        · exact writesWithin_applyPending st₁
      rw [h]
      apply hpass.trans
      rw [← managed_congr hslots]
      exact writesWithin_reapAfterPopulationCommand hE

theorem writesWithin_gameFrame (hE : E.KeepsClients) {nowSec : Float} :
    WritesWithin st.ids.Managed st.ids.Managed st.world (gameFrame E st nowSec).world := by
  rw [gameFrame]
  split
  · exact writesWithin_pollMapGate
  · rename_i hs
    obtain ⟨gate, he⟩ | ⟨-, he⟩ := pollMapGate_cases
    · rw [he, world_jitterPings]
      generalize hst₁ : ({ st with gate := gate } : State) = st₁
      have hids : st₁.ids = st.ids := by rw [← hst₁]
      have hworld : st₁.world = st.world := by rw [← hst₁]
      rw [← hids, ← hworld]
      have hslots : (tickVoteTransaction st₁).ids.slots = st₁.ids.slots :=
        tickVoteTransaction_rule (fun _ _ => slotsRule) (rfl : st₁.registry.ids.slots = _)
      apply writesWithin_tickVoteTransaction.trans
      rw [← managed_congr hslots]
      exact writesWithin_drainPendingControllerRemovals hE
    · rw [he] at hs
      exact absurd rfl hs

/-- Through a whole hook, marker bytes change only in clients of the slots it may write. -/
theorem writesWithin_runHook (hE : E.KeepsClients) (hook : Hook) :
    WritesWithin (st.mayWrite hook) st.ids.Managed st.world (runHook E st hook).world := by
  cases hook with
  | onClientConnected slot name xuid fakePlayer => exact writesWithin_onClientConnected
  | clientPutInServer slot =>
    rw [runHook, clientPutInServer]
    split
    · exact .refl
    · exact writesWithin_applyDisguiseIfPending
  | clientDisconnect slot reason => exact writesWithin_clientDisconnect hE
  | dispatchConCommandPre command arguments => exact writesWithin_dispatchConCommandPre hE
  | dispatchConCommandPost command arguments => exact writesWithin_dispatchConCommandPost hE
  | gameFrame nowSec => exact writesWithin_gameFrame hE
  | onLevelInit mapName =>
    cases mapName with
    | none => exact writesWithin_pollMapGate
    | some name =>
      rw [runHook]
      simp only [onLevelInit]
      split
      · exact writesWithin_applyMapGate_pollMapGate
      · exact writesWithin_pollMapGate

end Botid
