import Botid.LiveIdentities
import Botid.SparedSlot

/-! A window for one slot: what its opening, its ticks and its end do to the other slots. -/
namespace Botid

open Machine ByteMem World

variable {E : EngineCalls} {st st' y : State} {ids : Identities} {v : Vote} {w w' : World} {s t u : Int}
  {p q c : Ptr} {oc : Option Ptr} {snapshot : VoteSlotSnapshot} {b : BotIdentity} {i : Nat}

/-- No controller answers for two slots; of clients this is in `clients_distinct`. -/
def World.Apart (w : World) : Prop :=
  ∀ t u c, w.controllerOf t = some c → w.controllerOf u = some c → t = u

/-- No slot but this one is in the window. -/
structure Vote.Only (s : Int) (v : Vote) : Prop where
  others : ∀ t, t ≠ s → (v.snapshots t).captured = false
  slot : (v.snapshots s).captured = true → (v.snapshots s).slot = s

/-- The slot holds an entry whose disguise was not applied yet. -/
def State.Pending (st : State) (u : Int) (b : BotIdentity) : Prop :=
  ∃ i, st.ids.Holds u i ∧ st.ids.bots[i]? = some b ∧ b.applied = false

/-- The slot's client and controller keep every byte, or get the full disguise that was pending. -/
def LeavesSlot (st st' : State) (u : Int) : Prop :=
  ∀ q, st.world.resolveClientBySlot u = some q →
    World.Spares q (st.world.controllerOf u) st.world st'.world ∨
      ∃ b, st.Pending u b ∧
        World.Spares q (st.world.controllerOf u) (st.world.disguise q b.steamId) st'.world

namespace World

theorem OnlyMemory.symm (h : w.OnlyMemory w') : w'.OnlyMemory w := by
  obtain ⟨_, _, rfl⟩ := h
  exact ⟨w.client, w.controller, rfl⟩

theorem Apart.ne (hw : w.Apart) (htu : t ≠ u) (h : w.controllerOf t = some c) :
    w.controllerOf u ≠ some c := fun hu => htu (hw t u c h hu)

theorem client_ne (htu : t ≠ u) (hp : w.resolveClientBySlot t = some p)
    (hq : w.resolveClientBySlot u = some q) : p ≠ q := by
  rintro rfl
  exact htu (resolveClientBySlot_inj hp hq)

theorem snapshotControllerLive_resolves (h : snapshotControllerLive w snapshot p = some c) :
    w.resolveController (getEntityIndex (w.client p)) = some c := by
  rw [snapshotControllerLive] at h
  split at h
  · simp at h
  · split at h
    · simp at h
    · rename_i hc
      split at h
      · simp at h
      · rw [hc, h]

theorem getEntityIndex_disguised {m : Mem} {sid : UInt64} :
    getEntityIndex (writeSteamId (clearFakePlayer m) sid) = getEntityIndex m := by
  apply getEntityIndex_congr
  intro k hk
  rw [writeSteamId_out (by simp only [offEntityIndex, offSteamID, offSteamIDMirror]; omega),
    clearFakePlayer_of_ne (by simp only [offEntityIndex, offConnectionTypeFlags]; omega)
      (by simp only [offEntityIndex, offFakePlayer]; omega)]

theorem spares_disguise {sid : UInt64} (hp : p ≠ q)
    (hc : ∀ c, w.resolveController (getEntityIndex (w.client p)) = some c → oc ≠ some c) :
    Spares q oc w (w.disguise p sid) := by
  rw [disguise]
  exact (spares_onClient hp).trans (spares_onLiveController hc)

/-- A disguise leaves every slot its controller. -/
theorem controllerOf_disguise {sid : UInt64} :
    (w.disguise p sid).controllerOf t = w.controllerOf t := by
  obtain ⟨hmem, hclient⟩ := @onlyClient_disguise w p sid
  rw [controllerOf, controllerOf, hmem.resolveClientBySlot]
  cases hq : w.resolveClientBySlot t with
  | none => rw [Option.bind_none, Option.bind_none]
  | some q =>
    rw [Option.bind_some, Option.bind_some, hmem.resolveController]
    by_cases hqp : q = p
    · subst hqp
      rw [disguise, client_onLiveController, client_onClient_self, getEntityIndex_disguised]
    · rw [hclient q hqp]

end World

/-- The loop of a window with one slot in it is the pass for that slot. -/
theorem forSlots_eq_pass {σ : Type} {body : σ → Int → σ} {x : σ} (hs : 0 ≤ s) (hs' : s < kMaxSlots)
    (hpre : ∀ t, t ≠ s → body x t = x) (hpost : ∀ t, t ≠ s → body (body x s) t = body x s) :
    forSlots body x = body x s := by
  refine forSlots_at body (J := fun y => y = x) (Q := fun y => y = body x s) hs hs' ?_ ?_ ?_ rfl
  · rintro _ t ht rfl
    exact hpre t ht
  · rintro _ rfl
    rfl
  · rintro _ t ht rfl
    exact hpost t ht

theorem reassertSlot_of_not_captured (h : (v.snapshots t).captured = false) :
    reassertSlot ids (v, w) t = (v, w) := by
  simp [reassertSlot, h]

theorem restoreSlot_of_not_captured (h : (v.snapshots t).captured = false) :
    restoreSlot ids (v, w) t = (v, w) := by
  simp [restoreSlot, h]

theorem Vote.Only.setSnapshot (hv : v.Only s) (h : snapshot.captured = true → snapshot.slot = s) :
    (v.setSnapshot s snapshot).Only s := by
  constructor
  · intro t hts
    rw [Vote.setSnapshot]
    dsimp only
    rw [Function.update_of_ne hts]
    exact hv.others t hts
  · rw [setSnapshot_self]
    exact h

theorem Vote.Only.reassertSlot (hv : v.Only s) : (reassertSlot ids (v, w) s).1.Only s := by
  unfold Botid.reassertSlot
  dsimp only
  split
  · exact hv
  · split
    · exact hv
    · split
      · exact hv
      · obtain ⟨copies, hcopies⟩ := @snapshot_applyNativeVoteMarkers w _ (v.snapshots s)
          (snapshotControllerLive w (v.snapshots s) _)
        apply hv.setSnapshot
        rw [hcopies]
        exact hv.slot

theorem Vote.Only.restoreSlot (hv : v.Only s) : (restoreSlot ids (v, w) s).1.Only s := by
  have hclosed : (v.setSnapshot s { v.snapshots s with captured := false }).Only s :=
    hv.setSnapshot (by simp)
  unfold Botid.restoreSlot
  dsimp only
  split
  · exact hv
  · split
    · exact hclosed
    · split
      · exact hclosed
      · split <;> exact hclosed

/-- A hold tick's pass for a slot spares the others. -/
theorem spares_reassertSlot (hw : w.Apart) (htu : t ≠ u) (hq : w.resolveClientBySlot u = some q)
    (hslot : (v.snapshots t).captured = true → (v.snapshots t).slot = t) :
    World.Spares q (w.controllerOf u) w (reassertSlot ids (v, w) t).2 := by
  unfold reassertSlot
  dsimp only
  split
  · exact .refl
  · rename_i hc
    have hcap : (v.snapshots t).captured = true := by simpa using (not_or.mp hc).1
    split
    · exact .refl
    · rename_i p hp
      rw [hslot hcap] at hp
      split
      · exact .refl
      · refine spares_applyNativeVoteMarkers (client_ne htu hp hq) fun c hlive => hw.ne htu ?_
        rw [controllerOf_eq hp, snapshotControllerLive_resolves hlive]

/-- And so does the pass that ends the window for it. -/
theorem spares_restoreSlot (hw : w.Apart) (htu : t ≠ u) (hq : w.resolveClientBySlot u = some q)
    (hslot : (v.snapshots t).captured = true → (v.snapshots t).slot = t) :
    World.Spares q (w.controllerOf u) w (restoreSlot ids (v, w) t).2 := by
  unfold restoreSlot
  dsimp only
  split
  · exact .refl
  · rename_i hc
    have hcap : (v.snapshots t).captured = true := by simpa using hc
    split
    · exact .refl
    · split
      · exact .refl
      · rename_i p hp
        rw [hslot hcap] at hp
        split
        · exact .refl
        · refine spares_replayDisguise (client_ne htu hp hq) fun c hlive => hw.ne htu ?_
          have hfound := snapshotControllerLive_resolves hlive
          rw [client_onClient_self, getEntityIndex_disguised] at hfound
          rw [controllerOf_eq hp]
          exact hfound

/-- The world between the two loops of `RestorePlayerIdentity`, at the end of a window. -/
def State.restored (st : State) : Vote × World :=
  forSlots (restoreSlot st.ids)
    ({ st.vote with valid := false, holdFramesRemaining := 0, endScheduled := false, depth := 0 },
      st.world)

theorem Vote.Only.congr {v' : Vote} (hv : v.Only s) (h : v'.snapshots = v.snapshots) : v'.Only s := by
  constructor
  · rw [h]
    exact hv.others
  · rw [h]
    exact hv.slot

/-- What a pass over pending disguises keeps: the slots' entries and controllers, and no entry becomes
pending. -/
structure Disguising (st y : State) : Prop where
  mem : st.world.OnlyMemory y.world
  controllers : ∀ t, y.world.controllerOf t = st.world.controllerOf t
  slots : y.ids.slots = st.ids.slots
  pending : ∀ (i : Nat) (b : BotIdentity), y.ids.bots[i]? = some b → b.applied = false →
    ∃ b₀ : BotIdentity, st.ids.bots[i]? = some b₀ ∧ b₀.applied = false ∧ b₀.steamId = b.steamId

theorem Disguising.refl : Disguising st st :=
  ⟨.refl, fun _ => rfl, rfl, fun _ b hb ha => ⟨b, hb, ha, rfl⟩⟩

theorem Disguising.holds (h : Disguising st y) : y.ids.Holds u i ↔ st.ids.Holds u i := by
  rw [Identities.Holds, Identities.Holds, h.slots]

/-- An entry that is pending after a write through its pointer was pending before. -/
theorem pending_modifyBot {f : BotIdentity → BotIdentity} {k : Nat}
    (hf : ∀ c, (f c).applied = false → c.applied = false ∧ (f c).steamId = c.steamId)
    (hb : (ids.modifyBot k f).bots[i]? = some b) (ha : b.applied = false) :
    ∃ b₀, ids.bots[i]? = some b₀ ∧ b₀.applied = false ∧ b₀.steamId = b.steamId := by
  rw [Identities.modifyBot, List.getElem?_modify] at hb
  obtain ⟨b₀, hb₀, hmap⟩ := Option.map_eq_some_iff.mp hb
  refine ⟨b₀, hb₀, ?_⟩
  split at hmap
  · subst hmap
    obtain ⟨ha₀, hid⟩ := hf b₀ ha
    exact ⟨ha₀, hid.symm⟩
  · subst hmap
    exact ⟨ha, rfl⟩

theorem Disguising.trans (h : Disguising st y) (h' : Disguising y st') : Disguising st st' := by
  refine ⟨h.mem.trans h'.mem, fun t => (h'.controllers t).trans (h.controllers t),
    h'.slots.trans h.slots, fun i b hb ha => ?_⟩
  obtain ⟨b₁, hb₁, ha₁, hid₁⟩ := h'.pending i b hb ha
  obtain ⟨b₀, hb₀, ha₀, hid₀⟩ := h.pending i b₁ hb₁ ha₁
  exact ⟨b₀, hb₀, ha₀, hid₀.trans hid₁⟩

theorem disguising_applyDisguise (y : State) (t : Int) (i : Nat) :
    Disguising y (applyDisguise y t i) := by
  rcases applyDisguise_cases y t i with h | ⟨b, -, -, -, ⟨-, h⟩ | ⟨p, -, -, h⟩⟩
  · rw [h]
    exact .refl
  · rw [h]
    refine ⟨.refl, fun _ => rfl, rfl, fun j c hc ha => ?_⟩
    exact pending_modifyBot (f := fun b => { b with slot := t }) (fun _ hf => ⟨hf, rfl⟩) hc ha
  · rw [h]
    refine ⟨onlyClient_disguise.1, fun _ => controllerOf_disguise, rfl, fun j c hc ha => ?_⟩
    exact pending_modifyBot (fun _ hf => by simp at hf) hc ha

theorem disguising_applyDisguiseIfPending (y : State) (t : Int) :
    Disguising y (applyDisguiseIfPending y t) := by
  rcases applyDisguiseIfPending_cases y t with h | ⟨i, -, h⟩
  · rw [h]
    exact .refl
  · rw [h]
    exact disguising_applyDisguise y t i

/-- A disguise for one slot spares the others. -/
theorem spares_applyDisguiseIfPending (hw : y.world.Apart) (htu : t ≠ u)
    (hq : y.world.resolveClientBySlot u = some q) :
    World.Spares q (y.world.controllerOf u) y.world (applyDisguiseIfPending y t).world := by
  rcases applyDisguiseIfPending_cases y t with h | ⟨i, -, h⟩
  · rw [h]
    exact .refl
  · rw [h]
    rcases applyDisguise_cases y t i with h | ⟨b, -, -, -, ⟨-, h⟩ | ⟨p, -, hp, h⟩⟩
    · rw [h]
      exact .refl
    · rw [h]
      exact .refl
    · rw [h]
      refine spares_disguise (client_ne htu hp hq) fun c hc => hw.ne htu ?_
      rw [controllerOf_eq hp, hc]

/-- One disguise of two memories that agree on the slot's objects. -/
theorem spares_disguise_disguise {sid : UInt64} (h : World.Spares q (w.controllerOf u) w w')
    (hq : w.resolveClientBySlot u = some q) :
    World.Spares q (w.controllerOf u) (w.disguise q sid) (w'.disguise q sid) := by
  have hcontroller : w'.resolveController (getEntityIndex (w'.client q)) = w.controllerOf u := by
    rw [h.client, h.mem.resolveController, ← controllerOf_eq hq]
  refine ⟨?_, ?_, fun c hc => ?_⟩
  · exact onlyClient_disguise.1.symm.trans (h.mem.trans onlyClient_disguise.1)
  · rw [disguise, disguise, client_onLiveController, client_onLiveController, client_onClient_self,
      client_onClient_self, h.client]
  · rw [disguise, disguise, hcontroller, ← controllerOf_eq hq, hc, onLiveController, onLiveController,
      controller_onController_self, controller_onController_self]
    exact congrArg clearControllerFakeClientFlag (h.controller c hc)

/-- The slot's own pass leaves it, or puts on its pending disguise. -/
theorem applyDisguiseIfPending_own (h : Disguising st y)
    (hspares : World.Spares q (st.world.controllerOf u) st.world y.world)
    (hq : st.world.resolveClientBySlot u = some q) :
    World.Spares q (st.world.controllerOf u) st.world (applyDisguiseIfPending y u).world ∨
      ∃ b, st.Pending u b ∧ World.Spares q (st.world.controllerOf u) (st.world.disguise q b.steamId)
        (applyDisguiseIfPending y u).world := by
  rcases applyDisguiseIfPending_cases y u with he | ⟨i, hold, he⟩
  · rw [he]
    exact Or.inl hspares
  · rw [he]
    rcases applyDisguise_cases y u i with he | ⟨b, -, hb, ha, ⟨-, he⟩ | ⟨p, -, hp, he⟩⟩
    · rw [he]
      exact Or.inl hspares
    · rw [he]
      exact Or.inl hspares
    · obtain ⟨b₀, hb₀, ha₀, hid⟩ := h.pending i b hb ha
      refine Or.inr ⟨b₀, ⟨i, h.holds.mp hold, hb₀, ha₀⟩, ?_⟩
      rw [h.mem.resolveClientBySlot, hq, Option.some.injEq] at hp
      subst hp
      rw [he, hid]
      exact spares_disguise_disguise hspares hq

/-- The disguise pass over all slots does nothing to a slot but put on its own pending disguise. -/
theorem leavesSlot_applyPending (hw : st.world.Apart) :
    LeavesSlot st (forSlots applyDisguiseIfPending st) u := by
  intro q hq
  have hother : ∀ y t, t ≠ u → Disguising st y → World.Spares q (st.world.controllerOf u) y.world
      (applyDisguiseIfPending y t).world := by
    intro y t htu h
    have hapart : y.world.Apart := by
      intro t₁ t₂ c h₁ h₂
      rw [h.controllers] at h₁ h₂
      exact hw t₁ t₂ c h₁ h₂
    rw [← h.controllers u]
    exact spares_applyDisguiseIfPending hapart htu (by rw [h.mem.resolveClientBySlot, hq])
  by_cases hu : 0 ≤ u ∧ u < kMaxSlots
  · refine (forSlots_at applyDisguiseIfPending (x := st)
      (J := fun y => Disguising st y ∧ World.Spares q (st.world.controllerOf u) st.world y.world)
      (Q := fun y => Disguising st y ∧
        (World.Spares q (st.world.controllerOf u) st.world y.world ∨ ∃ b, st.Pending u b ∧
          World.Spares q (st.world.controllerOf u) (st.world.disguise q b.steamId) y.world))
      hu.1 hu.2 ?_ ?_ ?_ ⟨.refl, .refl⟩).2
    · rintro y t htu ⟨h, hspares⟩
      exact ⟨h.trans (disguising_applyDisguiseIfPending y t), hspares.trans (hother y t htu h)⟩
    · rintro y ⟨h, hspares⟩
      exact ⟨h.trans (disguising_applyDisguiseIfPending y u), applyDisguiseIfPending_own h hspares hq⟩
    · rintro y t htu ⟨h, hcase⟩
      refine ⟨h.trans (disguising_applyDisguiseIfPending y t), ?_⟩
      rcases hcase with hspares | ⟨b, hb, hspares⟩
      · exact Or.inl (hspares.trans (hother y t htu h))
      · exact Or.inr ⟨b, hb, hspares.trans (hother y t htu h)⟩
  · refine Or.inl (forSlots_invariant_of_mem (x := st)
      (I := fun y => Disguising st y ∧ World.Spares q (st.world.controllerOf u) st.world y.world)
      ?_ ⟨.refl, .refl⟩).2
    rintro y t ht ht' ⟨h, hspares⟩
    have htu : t ≠ u := by
      rintro rfl
      exact hu ⟨ht, ht'⟩
    exact ⟨h.trans (disguising_applyDisguiseIfPending y t), hspares.trans (hother y t htu h)⟩

theorem leavesSlot_of_spares (h : ∀ q, st.world.resolveClientBySlot u = some q →
    World.Spares q (st.world.controllerOf u) st.world st'.world) : LeavesSlot st st' u :=
  fun q hq => Or.inl (h q hq)

/-- What spares the slot first changes nothing in what a disguise pass does to it. -/
theorem LeavesSlot.of_spares (h' : LeavesSlot y st' u)
    (h : ∀ q, st.world.resolveClientBySlot u = some q →
      World.Spares q (st.world.controllerOf u) st.world y.world)
    (hmem : st.world.OnlyMemory y.world) (hids : y.ids = st.ids) : LeavesSlot st st' u := by
  intro q hq
  have hspares := h q hq
  have hcontroller : y.world.controllerOf u = st.world.controllerOf u := by
    have hq' : y.world.resolveClientBySlot u = some q := by rw [hmem.resolveClientBySlot, hq]
    rw [controllerOf_eq hq', controllerOf_eq hq, hmem.resolveController, hspares.client]
  rcases h' q (by rw [hmem.resolveClientBySlot, hq]) with hrest | ⟨b, hb, hrest⟩
  · rw [hcontroller] at hrest
    exact Or.inl (hspares.trans hrest)
  · rw [hcontroller] at hrest
    refine Or.inr ⟨b, ?_, (spares_disguise_disguise hspares hq).trans hrest⟩
    rw [State.Pending, hids] at hb
    exact hb

/-- The opening for one slot spares the others, and puts nothing else in the window. -/
theorem spares_beginVoteTransactionForSlot (hw : st.world.Apart) (hsu : s ≠ u)
    (hq : st.world.resolveClientBySlot u = some q) :
    World.Spares q (st.world.controllerOf u) st.world (beginVoteTransactionForSlot st s).world := by
  rw [beginVoteTransactionForSlot]
  dsimp only
  split
  · exact (passSpares_captureOneManagedSlot hsu hq fun _ c hc => hw.ne hsu hc).world
  · exact .refl

theorem only_captureOneManagedSlot :
    (captureOneManagedSlot ids v.clearSnapshots w s).2.1.Only s := by
  obtain ⟨hothers, -, -⟩ := captureOneManagedSlot_frame ids v.clearSnapshots w s
  constructor
  · intro t hts
    rw [hothers t hts]
    rfl
  · rw [captureOneManagedSlot]
    split
    · exact fun h => absurd h (by simp [Vote.clearSnapshots])
    · dsimp only
      split
      · exact fun h => absurd h (by simp [Vote.setSnapshot])
      · split
        · exact fun h => absurd h (by simp [Vote.setSnapshot])
        · rename_i p hp
          obtain ⟨copies, hcopies⟩ := @snapshot_applyNativeVoteMarkers w p (takeSnapshot w s p)
            (takeSnapshot w s p).controller
          intro _
          rw [setSnapshot_self, hcopies]
          exact takeSnapshot_spec.2.1

theorem only_beginVoteTransactionForSlot (hidle : st.vote.active = false) :
    (beginVoteTransactionForSlot st s).vote.Only s := by
  have hdepth : st.vote.depth = 0 := by simpa [Vote.active] using hidle
  rw [beginVoteTransactionForSlot]
  dsimp only
  rw [if_pos hdepth]
  exact (@only_captureOneManagedSlot st.ids { st.vote with depth := st.vote.depth + 1 } st.world s).congr rfl

/-- A hold tick in a window for one slot. -/
theorem reassert_eq_pass (hv : v.Only s) (hs : 0 ≤ s) (hs' : s < kMaxSlots) (hvalid : v.valid = true) :
    reassertNativeVoteMarkers ids v w = reassertSlot ids (v, w) s := by
  have hpost : (reassertSlot ids (v, w) s).1.Only s := hv.reassertSlot
  rw [reassertNativeVoteMarkers, hvalid, if_neg (by simp)]
  exact forSlots_eq_pass hs hs' (fun t ht => reassertSlot_of_not_captured (hv.others t ht))
    fun t ht => reassertSlot_of_not_captured (hpost.others t ht)

theorem reassert_of_not_valid (hvalid : v.valid = false) :
    reassertNativeVoteMarkers ids v w = (v, w) := by
  simp [reassertNativeVoteMarkers, hvalid]

theorem Vote.Only.reassert (hv : v.Only s) (hs : 0 ≤ s) (hs' : s < kMaxSlots) :
    (reassertNativeVoteMarkers ids v w).1.Only s := by
  cases hvalid : v.valid with
  | false =>
    rw [reassert_of_not_valid hvalid]
    exact hv
  | true =>
    rw [reassert_eq_pass hv hs hs' hvalid]
    exact hv.reassertSlot

theorem spares_reassert (hv : v.Only s) (hs : 0 ≤ s) (hs' : s < kMaxSlots) (hw : w.Apart) (hsu : s ≠ u)
    (hq : w.resolveClientBySlot u = some q) :
    World.Spares q (w.controllerOf u) w (reassertNativeVoteMarkers ids v w).2 := by
  cases hvalid : v.valid with
  | false =>
    rw [reassert_of_not_valid hvalid]
    exact .refl
  | true =>
    rw [reassert_eq_pass hv hs hs' hvalid]
    exact spares_reassertSlot hw hsu hq hv.slot

/-- The first loop of its end. -/
theorem restored_only (hv : st.vote.Only s) (hs : 0 ≤ s) (hs' : s < kMaxSlots) :
    st.restored.1.Only s ∧ (st.world.Apart → ∀ u q, s ≠ u → st.world.resolveClientBySlot u = some q →
      World.Spares q (st.world.controllerOf u) st.world st.restored.2) := by
  have hclosing : Vote.Only s
      { st.vote with valid := false, holdFramesRemaining := 0, endScheduled := false, depth := 0 } :=
    hv.congr rfl
  have hpost := @Vote.Only.restoreSlot st.ids _ st.world s hclosing
  rw [State.restored, forSlots_eq_pass hs hs'
    (fun t ht => restoreSlot_of_not_captured (hclosing.others t ht))
    fun t ht => restoreSlot_of_not_captured (hpost.others t ht)]
  exact ⟨hpost, fun hw u q hsu hq => spares_restoreSlot hw hsu hq hclosing.slot⟩

theorem onlyMemory_restored : st.world.OnlyMemory st.restored.2 := by
  refine forSlots_invariant (I := fun y : Vote × World => st.world.OnlyMemory y.2) ?_ .refl
  rintro ⟨v, w⟩ t h
  refine h.trans ?_
  unfold restoreSlot
  dsimp only
  split
  · exact .refl
  · split
    · exact .refl
    · split
      · exact .refl
      · split
        · exact .refl
        · exact onlyClient_replayDisguise.1

theorem closeVoteTransaction_eq (hvalid : st.vote.valid = true) : closeVoteTransaction st =
    forSlots applyDisguiseIfPending { st with vote := st.restored.1, world := st.restored.2 } := by
  rw [closeVoteTransaction, restorePlayerIdentity, hvalid]
  rfl

theorem closeVoteTransaction_of_not_valid (hvalid : st.vote.valid = false) :
    (closeVoteTransaction st).world = st.world ∧
      (closeVoteTransaction st).vote.snapshots = st.vote.snapshots := by
  rw [closeVoteTransaction, restorePlayerIdentity, hvalid]
  exact ⟨rfl, rfl⟩

theorem vote_applyPending : (forSlots applyDisguiseIfPending st).vote = st.vote := by
  refine forSlots_invariant (I := fun y : State => y.vote = st.vote) (fun y t h => ?_) rfl
  rw [vote_applyDisguiseIfPending, h]

/-- The end of a window for one slot. -/
theorem close_only (hv : st.vote.Only s) (hs : 0 ≤ s) (hs' : s < kMaxSlots) :
    (closeVoteTransaction st).vote.Only s ∧ (st.world.Apart → st.restored.2.Apart →
      ∀ u, s ≠ u → LeavesSlot st (closeVoteTransaction st) u) := by
  obtain ⟨honly, hspares⟩ := restored_only hv hs hs'
  cases hvalid : st.vote.valid with
  | false =>
    obtain ⟨hworld, hsnapshots⟩ := closeVoteTransaction_of_not_valid hvalid
    refine ⟨hv.congr hsnapshots, fun _ _ u _ => leavesSlot_of_spares fun q _ => ?_⟩
    rw [hworld]
    exact .refl
  | true =>
    rw [closeVoteTransaction_eq hvalid, vote_applyPending]
    refine ⟨honly, fun hw hw' u hsu => ?_⟩
    have hpass : LeavesSlot { st with vote := st.restored.1, world := st.restored.2 }
        (forSlots applyDisguiseIfPending { st with vote := st.restored.1, world := st.restored.2 }) u :=
      leavesSlot_applyPending hw'
    exact hpass.of_spares (fun q hq => hspares hw u q hsu hq) onlyMemory_restored rfl

/-- What happens while a window for one slot is open: the calls of the vote code, and players who come
and go. -/
inductive WindowStep
  | schedule (frames : Int)
  | tick
  | forceEnd
  | reset
  | connect (slot : Int) (name : Option Bytes) (xuid : UInt64) (fakePlayer : Bool)
  | putInServer (slot : Int)
  | disconnect (slot : Int) (reason : Int)

/-- Of the other steps the vote code has `ResetVoteTransactionSlot` alone, which writes to no object. -/
def WindowStep.isVoteCode : WindowStep → Bool
  | .schedule _ => true
  | .tick => true
  | .forceEnd => true
  | .reset => true
  | _ => false

/-- The engine as it stands by then, and the step. -/
structure WindowEvent where
  world : World
  step : WindowStep

def runWindowStep (E : EngineCalls) (st : State) : WindowStep → State
  | .schedule frames => { st with vote := scheduleVoteTransactionEnd st.vote frames }
  | .tick => tickVoteTransaction st
  | .forceEnd => forceEndVoteTransaction st
  | .reset => { st with vote := resetVoteTransaction }
  | .connect slot name xuid fakePlayer => onClientConnected st slot name xuid fakePlayer
  | .putInServer slot => clientPutInServer st slot
  | .disconnect slot reason => clientDisconnect E st slot reason

def windowStep (E : EngineCalls) (st : State) (ev : WindowEvent) : State :=
  runWindowStep E (st.withWorld ev.world) ev.step

/-- The step runs `RestorePlayerIdentity`. -/
def State.closesAt (st : State) : WindowStep → Prop
  | .tick =>
    st.world.serverAlive = true ∧ st.vote.endScheduled = true ∧ st.vote.holdFramesRemaining ≤ 1
  | .forceEnd => st.vote.active = true ∨ st.vote.endScheduled = true
  | _ => False

/-- No two slots share a controller when the step begins, nor when the restored slot's bytes are back. -/
def ApartAt (st : State) (ev : WindowEvent) : Prop :=
  ev.world.Apart ∧
    ((st.withWorld ev.world).closesAt ev.step → (st.withWorld ev.world).restored.2.Apart)

theorem only_reset : resetVoteTransaction.Only s :=
  ⟨fun _ _ => rfl, fun h => absurd h (by simp [resetVoteTransaction])⟩

theorem Vote.Only.resetSlot (hv : v.Only s) : (resetVoteTransactionSlot v t).Only s := by
  rw [resetVoteTransactionSlot]
  split
  · exact hv
  · split
    · exact hv
    · constructor
      · intro t' hts
        rw [Vote.setSnapshot]
        dsimp only
        rcases eq_or_ne t' t with rfl | hne
        · rw [Function.update_self]
        · rw [Function.update_of_ne hne]
          exact hv.others t' hts
      · rw [Vote.setSnapshot]
        dsimp only
        rcases eq_or_ne s t with rfl | hne
        · rw [Function.update_self]
          exact fun h => absurd h (by simp)
        · rw [Function.update_of_ne hne]
          exact hv.slot

theorem Vote.Only.schedule {frames : Int} (hv : v.Only s) :
    (scheduleVoteTransactionEnd v frames).Only s := by
  rw [scheduleVoteTransactionEnd]
  split
  · exact hv
  · exact hv.congr rfl

theorem only_tick (hv : st.vote.Only s) (hs : 0 ≤ s) (hs' : s < kMaxSlots) :
    (tickVoteTransaction st).vote.Only s := by
  rw [tickVoteTransaction]
  split
  · exact hv
  · split
    · exact only_reset
    · split
      · exact hv
      · split
        · exact (hv.reassert hs hs').congr rfl
        · exact (close_only hv hs hs').1

theorem only_forceEnd (hv : st.vote.Only s) (hs : 0 ≤ s) (hs' : s < kMaxSlots) :
    (forceEndVoteTransaction st).vote.Only s := by
  rw [forceEndVoteTransaction]
  split
  · exact hv
  · exact (close_only hv hs hs').1

theorem vote_restoreIdentity : (restoreIdentity st t).vote = st.vote := by
  rw [restoreIdentity]
  split <;> rfl

theorem only_releaseOccupant (hv : st.vote.Only s) : (releaseOccupant st t).vote.Only s := by
  rw [releaseOccupant]
  split
  · exact hv.resetSlot
  · exact hv

theorem only_onClientConnected {name : Option Bytes} {xuid : UInt64} {fakePlayer : Bool}
    (hv : st.vote.Only s) : (onClientConnected st t name xuid fakePlayer).vote.Only s := by
  rcases onClientConnected_cases st t name xuid fakePlayer with ⟨-, h⟩ | ⟨-, -, -, ⟨-, h⟩ | ⟨-, h⟩⟩
  · rw [h]
    exact hv
  · rw [h]
    exact only_releaseOccupant hv
  · rw [h]
    rcases assignIdentity_cases (releaseOccupant st t) t with ⟨_, _, -, ha⟩ | ⟨i, bots, r', -, ha⟩
    · rw [ha]
      exact only_releaseOccupant hv
    · rw [ha, vote_applyDisguise]
      exact only_releaseOccupant hv

theorem only_clientPutInServer (hv : st.vote.Only s) : (clientPutInServer st t).vote.Only s := by
  rw [clientPutInServer]
  split
  · exact hv
  · rw [vote_applyDisguiseIfPending]
    exact hv

theorem only_clientDisconnect {reason : Int} (hv : st.vote.Only s) :
    (clientDisconnect E st t reason).vote.Only s := by
  rcases clientDisconnect_cases E st t reason with ⟨-, h⟩ | ⟨-, pending, h⟩
  · rw [h]
    exact hv
  · rw [h]
    dsimp only
    rw [vote_restoreIdentity]
    exact hv.resetSlot

/-- What players do, and what the vote code does, puts no other slot in the window. -/
theorem only_windowStep {ev : WindowEvent} (hs : 0 ≤ s) (hs' : s < kMaxSlots) (hv : st.vote.Only s) :
    (windowStep E st ev).vote.Only s := by
  have hv' : (st.withWorld ev.world).vote.Only s := hv
  rw [windowStep]
  cases ev.step with
  | schedule frames => exact hv'.schedule
  | tick => exact only_tick hv' hs hs'
  | forceEnd => exact only_forceEnd hv' hs hs'
  | reset => exact only_reset
  | connect slot name xuid fakePlayer => exact only_onClientConnected hv'
  | putInServer slot => exact only_clientPutInServer hv'
  | disconnect slot reason => exact only_clientDisconnect hv'

theorem leavesSlot_refl : LeavesSlot st st u := fun _ _ => Or.inl .refl

theorem leavesSlot_tick (hv : st.vote.Only s) (hs : 0 ≤ s) (hs' : s < kMaxSlots) (hw : st.world.Apart)
    (hclose : st.closesAt .tick → st.restored.2.Apart) (hsu : s ≠ u) :
    LeavesSlot st (tickVoteTransaction st) u := by
  rw [tickVoteTransaction]
  split
  · exact leavesSlot_refl
  · split
    · exact leavesSlot_of_spares fun _ _ => .refl
    · rename_i halive
      split
      · exact leavesSlot_refl
      · rename_i hscheduled
        split
        · exact leavesSlot_of_spares fun q hq => spares_reassert hv hs hs' hw hsu hq
        · rename_i hhold
          refine (close_only hv hs hs').2 hw (hclose ⟨by simpa using halive, by simpa using hscheduled, ?_⟩) u hsu
          omega

theorem leavesSlot_forceEnd (hv : st.vote.Only s) (hs : 0 ≤ s) (hs' : s < kMaxSlots)
    (hw : st.world.Apart) (hclose : st.closesAt .forceEnd → st.restored.2.Apart) (hsu : s ≠ u) :
    LeavesSlot st (forceEndVoteTransaction st) u := by
  rw [forceEndVoteTransaction]
  split
  · exact leavesSlot_refl
  · rename_i hopen
    refine (close_only hv hs hs').2 hw (hclose ?_) u hsu
    rw [State.closesAt]
    simp only [Bool.not_eq_true', not_and_or, Bool.not_eq_false] at hopen
    exact hopen

/-- The calls of the vote code in a window for one slot. -/
theorem leavesSlot_windowStep {ev : WindowEvent} (hs : 0 ≤ s) (hs' : s < kMaxSlots)
    (hv : st.vote.Only s) (hapart : ApartAt st ev) (hcode : ev.step.isVoteCode = true) (hsu : s ≠ u) :
    LeavesSlot (st.withWorld ev.world) (windowStep E st ev) u := by
  have hv' : (st.withWorld ev.world).vote.Only s := hv
  obtain ⟨hw, hclose⟩ := hapart
  rw [windowStep]
  cases hstep : ev.step with
  | schedule frames => exact leavesSlot_of_spares fun _ _ => .refl
  | tick =>
    rw [hstep] at hclose
    exact leavesSlot_tick hv' hs hs' hw hclose hsu
  | forceEnd =>
    rw [hstep] at hclose
    exact leavesSlot_forceEnd hv' hs hs' hw hclose hsu
  | reset => exact leavesSlot_of_spares fun _ _ => .refl
  | connect slot name xuid fakePlayer => simp [hstep, WindowStep.isVoteCode] at hcode
  | putInServer slot => simp [hstep, WindowStep.isVoteCode] at hcode
  | disconnect slot reason => simp [hstep, WindowStep.isVoteCode] at hcode

/-- From the opening of a window for one slot to its end, over hold ticks, connects and disconnects in
any order, the vote code writes no byte of another slot's client or controller, but for full disguises
that were pending. -/
theorem single_slot_window_spares_others (hidle : st.vote.active = false)
    (hm : st.ids.isManaged s = true) (hw : st.world.Apart) {es : List WindowEvent}
    (hg : Guarded (windowStep E) ApartAt (beginVoteTransactionForSlot st s) es) :
    (∀ u q, u ≠ s → st.world.resolveClientBySlot u = some q →
        World.Spares q (st.world.controllerOf u) st.world (beginVoteTransactionForSlot st s).world) ∧
      Guarded (windowStep E)
        (fun st' ev => ev.step.isVoteCode = true →
          ∀ u, u ≠ s → LeavesSlot (st'.withWorld ev.world) (windowStep E st' ev) u)
        (beginVoteTransactionForSlot st s) es := by
  obtain ⟨hs, hs'⟩ := Identities.range_of_isManaged hm
  refine ⟨fun u q hus hq => spares_beginVoteTransactionForSlot hw (Ne.symm hus) hq, ?_⟩
  refine guarded_of_invariant (I := fun st' : State => st'.vote.Only s) ?_ ?_ hg
    (only_beginVoteTransactionForSlot hidle)
  · exact fun st' ev _ hv => only_windowStep hs hs' hv
  · exact fun st' ev hapart hv hcode u hus =>
      leavesSlot_windowStep hs hs' hv hapart hcode (Ne.symm hus)

/-- Two clients with a controller each. -/
def twoControllers : World :=
  { World.ofClients [100, 400] nodup_duo with
    client := fun p => writeLE (fun _ => 0) offEntityIndex 4 (if p = 100 then 1 else 2)
    entity := fun i =>
      if i = 1 then some (200, ascii "cs_player_controller")
      else if i = 2 then some (500, ascii "cs_player_controller") else none }

theorem apart_twoControllers (h : twoControllers.OnlyMemory w') (hfirst : getEntityIndex (w'.client 100) = 1)
    (hsecond : getEntityIndex (w'.client 400) = 2) : w'.Apart := by
  have hcontroller : ∀ t c, w'.controllerOf t = some c → t = 0 ∧ c = 200 ∨ t = 1 ∧ c = 500 := by
    intro t c hc
    obtain ⟨p, hp, hc⟩ := Option.bind_eq_some_iff.mp hc
    rw [h.resolveController] at hc
    rw [h.resolveClientBySlot] at hp
    obtain ⟨ht, hget⟩ := resolveClientBySlot_eq_some hp
    have hslot : t.toNat = 0 ∧ p = 100 ∨ t.toNat = 1 ∧ p = 400 := by
      match hn : t.toNat with
      | 0 => simp_all [twoControllers, World.ofClients]
      | 1 => simp_all [twoControllers, World.ofClients]
      | n + 2 => simp [twoControllers, World.ofClients, hn] at hget
    rcases hslot with ⟨hn, rfl⟩ | ⟨hn, rfl⟩
    · rw [hfirst] at hc
      exact Or.inl ⟨by omega, (Option.some.inj hc).symm⟩
    · rw [hsecond] at hc
      exact Or.inr ⟨by omega, (Option.some.inj hc).symm⟩
  intro t u c ht hu
  rcases hcontroller t c ht with ⟨rfl, rfl⟩ | ⟨rfl, rfl⟩
  · exact ((hcontroller u _ hu).resolve_right fun h => absurd h.2 (by decide)).1.symm
  · exact ((hcontroller u _ hu).resolve_left fun h => absurd h.2 (by decide)).1.symm

theorem apart_restored_twoControllers
    (hfirst : getEntityIndex ((st.withWorld twoControllers).restored.2.client 100) = 1)
    (hsecond : getEntityIndex ((st.withWorld twoControllers).restored.2.client 400) = 2) :
    (st.withWorld twoControllers).restored.2.Apart :=
  apart_twoControllers (@onlyMemory_restored (st.withWorld twoControllers)) hfirst hsecond

/-- A window for the first of two bots: a hold tick, the second one leaves, and the countdown ends. -/
def firstBotWindow : List WindowEvent :=
  [.schedule 2, .tick, .disconnect 1 0, .tick].map fun step => ⟨twoControllers, step⟩

theorem single_slot_window_spares_second_bot :
    let st := (run (step .idle) duoLoad twoConnectsRun).withWorld twoControllers
    Guarded (windowStep .idle)
      (fun st' ev => ev.step.isVoteCode = true →
        ∀ u, u ≠ 0 → LeavesSlot (st'.withWorld ev.world) (windowStep .idle st' ev) u)
      (beginVoteTransactionForSlot st 0) firstBotWindow := by
  intro st
  have hbefore : twoControllers.Apart := apart_twoControllers .refl (by decide) (by decide)
  have hg : Guarded (windowStep .idle) ApartAt (beginVoteTransactionForSlot st 0) firstBotWindow :=
    ⟨⟨hbefore, False.elim⟩,
      ⟨hbefore, fun _ => apart_restored_twoControllers (by decide +kernel) (by decide +kernel)⟩,
      ⟨hbefore, False.elim⟩,
      ⟨hbefore, fun _ => apart_restored_twoControllers (by decide +kernel) (by decide +kernel)⟩, trivial⟩
  exact (single_slot_window_spares_others (by decide +kernel) (by decide +kernel) hbefore hg).2

end Botid
