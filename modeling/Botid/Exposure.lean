import Botid.Window

/-! Which managed slots show Valve's markers or the disguise: what every window operation preserves. -/
namespace Botid

open Machine ByteMem World

variable {E : EngineCalls} {st st' : State} {ids ids' : Identities} {v v' : Vote} {w w' : World}
  {s t : Int} {i : Nat} {b : BotIdentity} {p : Ptr} {f : BotIdentity → BotIdentity}
  {pending pending' : Prop} {r : Registry} {K : Int → Prop}

namespace Identities

/-- No pool entry backs two slots. -/
def Exclusive (ids : Identities) : Prop := ∀ s t i, ids.Holds s i → ids.Holds t i → s = t

theorem getIdentity_of_not_managed (h : ids.isManaged s = false) : ids.getIdentity s = none := by
  cases hb : ids.getIdentity s with
  | none => rfl
  | some b =>
    obtain ⟨i, hold, -⟩ := holds_of_getIdentity hb
    exact absurd hold (isManaged_eq_false_iff.mp h i)

theorem getIdentity_modifyBot_self (hold : ids.Holds s i) :
    (ids.modifyBot i f).getIdentity s = (ids.getIdentity s).map f := by
  rw [Holds.getIdentity (holds_modifyBot.mpr hold), hold.getIdentity, modifyBot,
    List.getElem?_modify_eq]
  rfl

/-- An entry rewritten for one slot is no other slot's. -/
theorem getIdentity_modifyBot_of_ne (hx : ids.Exclusive) (hold : ids.Holds s i) (hts : t ≠ s) :
    (ids.modifyBot i f).getIdentity t = ids.getIdentity t := by
  cases hm : ids.isManaged t with
  | false =>
    rw [getIdentity_of_not_managed hm, getIdentity_of_not_managed (by rwa [isManaged_modifyBot])]
  | true =>
    obtain ⟨j, htj⟩ := isManaged_iff.mp hm
    have hij : i ≠ j := by
      rintro rfl
      exact hts (hx t s i htj hold)
    rw [Holds.getIdentity (holds_modifyBot.mpr htj), htj.getIdentity, modifyBot,
      List.getElem?_modify_ne _ _ hij]

theorem getIdentity_unmark_of_ne (hx : ids.Exclusive) (hts : t ≠ s) :
    (ids.unmark s).getIdentity t = ids.getIdentity t := by
  cases hm : ids.isManaged s with
  | false => rw [unmark_of_not_managed hm]
  | true =>
    obtain ⟨k, hold⟩ := isManaged_iff.mp hm
    cases hmt : ids.isManaged t with
    | false =>
      rw [getIdentity_of_not_managed hmt, getIdentity_of_not_managed]
      rw [← Bool.not_eq_true, isManaged_unmark, hmt]
      simp
    | true =>
      obtain ⟨j, htj⟩ := isManaged_iff.mp hmt
      have hkj : k ≠ j := by
        rintro rfl
        exact hts (hx t s k htj hold)
      rw [Holds.getIdentity (holds_unmark.mpr ⟨hts, htj⟩), htj.getIdentity, hold.bots_unmark,
        List.getElem?_modify_ne _ _ hkj]

end Identities

/-- Every slot counts as connected. -/
def everyone : Int → Bool := fun _ => true

theorem Live.exclusive (h : Live everyone r) : r.ids.Exclusive :=
  fun _ _ _ hs ht => h.owner_unique rfl rfl hs ht

theorem Live.not_superseded (h : Live everyone r) : ¬ Superseded everyone r.ids s := by
  rintro ⟨t, i, hne, -, ht, hs⟩
  exact hne (h.exclusive t s i ht hs)

theorem live_everyone_disguiseRule : DisguiseRule (Live everyone) fun _ => True := by
  intro r s i b h _ hold _ _
  refine ⟨h.disguise hold h.not_superseded (fun _ => rfl) (fun _ => rfl) (fun _ => rfl), ?_⟩
  exact live_congr (h.disguise hold h.not_superseded (f := fun b => { b with slot := s, applied := true })
    (fun _ => rfl) (fun _ => rfl) (fun _ => rfl)) Registry.ids_adopt

/-- The engine leaves the clients of these slots in place and their marker bytes alone. -/
structure World.Untouched (K : Int → Prop) (w w' : World) : Prop where
  resolves : ∀ s, K s → w'.resolveClientBySlot s = w.resolveClientBySlot s
  markers : ∀ s p, K s → w.resolveClientBySlot s = some p →
    ∀ a, Marker a → w'.client p a = w.client p a

theorem World.Untouched.refl : World.Untouched K w w := ⟨fun _ _ => rfl, fun _ _ _ _ _ _ => rfl⟩

theorem World.Untouched.trans {w₁ w₂ w₃ : World} (h : World.Untouched K w₁ w₂)
    (h' : World.Untouched K w₂ w₃) : World.Untouched K w₁ w₃ := by
  refine ⟨fun s hs => (h'.resolves s hs).trans (h.resolves s hs), fun s p hs hp a ha => ?_⟩
  rw [h'.markers s p hs ((h.resolves s hs).trans hp) a ha, h.markers s p hs hp a ha]

theorem World.Untouched.mono {K' : Int → Prop} (h : World.Untouched K w w')
    (hK : ∀ s, K' s → K s) : World.Untouched K' w w' :=
  ⟨fun s hs => h.resolves s (hK s hs), fun s p hs => h.markers s p (hK s hs)⟩

/-- A frame that writes no slot's markers. -/
theorem World.WritesWithin.untouched (h : WritesWithin (fun _ => False) K w w') :
    World.Untouched K w w' :=
  ⟨h.stays, fun _ p _ _ a ha => h.keeps p (fun _ hf => hf.elim) a ha⟩

/-- Writing one slot's client leaves the other slots' alone. -/
theorem World.OnlyClient.untouched (h : OnlyClient p w w') (hs : w.resolveClientBySlot s = some p) :
    World.Untouched (· ≠ s) w w' := by
  refine ⟨fun t _ => h.1.resolveClientBySlot, fun t q hts hq a _ => ?_⟩
  rw [h.2 q]
  rintro rfl
  exact hts (resolveClientBySlot_inj hq hs)

/-- A captured slot: its snapshot knows the client and the disguise to put back. An uncaptured one:
its client shows the disguise, unless the disguise is still pending. -/
def SlotSafe (pending : Prop) (ids : Identities) (v : Vote) (w : World) (s : Int) : Prop :=
  ∀ b, ids.getIdentity s = some b →
    ((v.snapshots s).captured = true → b.applied = true ∧
      (v.snapshots s).sscSteamId = b.steamId ∧ (v.snapshots s).slot = s ∧
      (v.snapshots s).client = w.resolveClientBySlot s) ∧
    ((v.snapshots s).captured = false → ∀ p, w.resolveClientBySlot s = some p →
      (b.applied = true → Disguised (w.client p) b.steamId) ∧ (b.applied = false → pending))

theorem SlotSafe.frame (h : SlotSafe pending ids v w s)
    (hid : ids'.getIdentity s = ids.getIdentity s) (hsnap : v'.snapshots s = v.snapshots s)
    (hpending : pending → pending') (hw : World.Untouched (· = s) w w') :
    SlotSafe pending' ids' v' w' s := by
  intro b hb
  obtain ⟨hcap, hun⟩ := h b (hid ▸ hb)
  rw [hsnap]
  refine ⟨fun hc => ?_, fun hc p hp => ?_⟩
  · rw [hw.resolves s rfl]
    exact hcap hc
  · rw [hw.resolves s rfl] at hp
    obtain ⟨happ, hpend⟩ := hun hc p hp
    exact ⟨fun ha => (disguised_congr (hw.markers s p rfl hp)).mpr (happ ha),
      fun ha => hpending (hpend ha)⟩

theorem slotSafe_of_not_managed (h : ids.isManaged s = false) : SlotSafe pending ids v w s := by
  intro b hb
  rw [Identities.getIdentity_of_not_managed h] at hb
  simp at hb

/-- Nothing is exposed: slots own their entries, and each of them is safe. -/
structure Safe (pending : Prop) (st : State) : Prop where
  live : Live everyone st.registry
  hosting : st.gate.suspended = true → ∀ s, st.ids.isManaged s = false
  window : ∀ s, (st.vote.snapshots s).captured = true →
    st.vote.valid = true ∧ st.vote.depth ≠ 0 ∧ st.ids.isManaged s = true
  slot : ∀ s, SlotSafe pending st.ids st.vote st.world s

/-- Only the table, the open window, the gate and the clients matter. -/
theorem Safe.frame (h : Safe pending st) (hids : st'.ids = st.ids)
    (hgate : st'.gate.suspended = st.gate.suspended)
    (hdepth : st.vote.depth ≠ 0 → st'.vote.depth ≠ 0) (hvalid : st'.vote.valid = st.vote.valid)
    (hsnap : st'.vote.snapshots = st.vote.snapshots) (hpending : pending → pending')
    (hw : World.Untouched st.ids.Managed st.world st'.world) : Safe pending' st' := by
  refine ⟨live_congr h.live hids, ?_, ?_, ?_⟩
  · rw [hgate, hids]
    exact h.hosting
  · intro s hs
    rw [hsnap] at hs
    obtain ⟨hv, hd, hm⟩ := h.window s hs
    exact ⟨hvalid.trans hv, hdepth hd, hids ▸ hm⟩
  · intro s
    rw [hids]
    cases hm : st.ids.isManaged s with
    | false => exact slotSafe_of_not_managed hm
    | true =>
      refine (h.slot s).frame rfl (by rw [hsnap]) hpending (hw.mono ?_)
      rintro t rfl
      exact hm

/-- A slot that is let go leaves the others as safe as they were. -/
theorem Safe.vacated (h : Safe pending st) (hids : st'.ids = st.ids.unmark s)
    (hgate : st'.gate.suspended = st.gate.suspended) (hdepth : st'.vote.depth = st.vote.depth)
    (hvalid : st'.vote.valid = st.vote.valid)
    (hsnap : ∀ t, t ≠ s → st'.vote.snapshots t = st.vote.snapshots t)
    (hself : (st'.vote.snapshots s).captured = false)
    (hw : World.Untouched (fun t => st.ids.Managed t ∧ t ≠ s) st.world st'.world) :
    Safe pending st' := by
  refine ⟨live_congr (h.live.unmark h.live.not_superseded) hids, ?_, ?_, ?_⟩
  · intro hg t
    rw [hids, ← Bool.not_eq_true, Identities.isManaged_unmark, h.hosting (hgate ▸ hg) t]
    simp
  · intro t ht
    have hts : t ≠ s := by
      rintro rfl
      simp [hself] at ht
    rw [hsnap t hts] at ht
    obtain ⟨hv, hd, hm⟩ := h.window t ht
    refine ⟨hvalid.trans hv, hdepth ▸ hd, ?_⟩
    rw [hids, Identities.isManaged_unmark]
    exact ⟨hts, hm⟩
  · intro t
    cases hm : st'.ids.isManaged t with
    | false => exact slotSafe_of_not_managed hm
    | true =>
      rw [hids, Identities.isManaged_unmark] at hm
      refine (h.slot t).frame ?_ (hsnap t hm.1) id (hw.mono ?_)
      · rw [hids]
        exact Identities.getIdentity_unmark_of_ne h.live.exclusive hm.1
      · rintro u rfl
        exact ⟨hm.2, hm.1⟩

/-- While no window is open nothing is captured. -/
theorem Safe.not_captured (h : Safe pending st) (hv : st.vote.active = false) :
    (st.vote.snapshots s).captured = false := by
  by_contra hc
  obtain ⟨-, hd, -⟩ := h.window s (by simpa using hc)
  simp [Vote.active, hd] at hv

theorem Safe.identity_of_managed (h : Safe pending st) (hm : st.ids.isManaged s = true) :
    ∃ i b, st.ids.Holds s i ∧ st.ids.bots[i]? = some b ∧ st.ids.getIdentity s = some b := by
  obtain ⟨i, hold⟩ := Identities.isManaged_iff.mp hm
  obtain ⟨b, hb, -⟩ := h.live.owned s i rfl hold
  exact ⟨i, b, hold, hb, by rw [hold.getIdentity]; exact hb⟩

/-- A disguise for one slot is nothing to another one. -/
theorem applyDisguise_frame (hx : st.ids.Exclusive) (hold : st.ids.Holds s i) (hts : t ≠ s) :
    (applyDisguise st s i).ids.getIdentity t = st.ids.getIdentity t ∧
      World.Untouched (· = t) st.world (applyDisguise st s i).world := by
  rcases applyDisguise_cases st s i with he | ⟨b, -, -, -, ⟨-, he⟩ | ⟨client, -, hc, he⟩⟩
  · rw [he]
    exact ⟨rfl, .refl⟩
  · rw [he]
    exact ⟨Identities.getIdentity_modifyBot_of_ne hx hold hts, .refl⟩
  · rw [he]
    refine ⟨Identities.getIdentity_modifyBot_of_ne hx hold hts,
      (onlyClient_disguise.untouched hc).mono ?_⟩
    rintro u rfl
    exact hts

theorem vote_applyDisguise : (applyDisguise st s i).vote = st.vote := by
  rcases applyDisguise_cases st s i with he | ⟨b, -, -, -, ⟨-, he⟩ | ⟨client, -, -, he⟩⟩ <;> rw [he]

theorem gate_applyDisguise : (applyDisguise st s i).gate = st.gate := by
  rcases applyDisguise_cases st s i with he | ⟨b, -, -, -, ⟨-, he⟩ | ⟨client, -, -, he⟩⟩ <;> rw [he]

theorem Safe.applyDisguise (h : Safe pending st) (hold : st.ids.Holds s i) :
    Safe pending (applyDisguise st s i) := by
  refine ⟨applyDisguise_rule live_everyone_disguiseRule trivial hold h.live, ?_, ?_, fun t => ?_⟩
  · intro hg t
    rw [gate_applyDisguise] at hg
    rw [Identities.isManaged_congr slots_applyDisguise]
    exact h.hosting hg t
  · intro t ht
    rw [vote_applyDisguise] at ht ⊢
    rw [Identities.isManaged_congr slots_applyDisguise]
    exact h.window t ht
  · by_cases hts : t = s
    · subst hts
      rcases applyDisguise_cases st t i with he | ⟨b, -, hb, ha, hcase⟩
      · rw [he]
        exact h.slot t
      · have hid : ∀ f, (st.ids.modifyBot i f).getIdentity t = some (f b) := by
          intro f
          rw [Identities.getIdentity_modifyBot_self hold, hold.getIdentity, hb, Option.map_some]
        intro c hc
        rcases hcase with ⟨-, he⟩ | ⟨client, hv, hres, he⟩
        · -- only claimed: nothing that matters changes in the slot's entry
          rw [he] at hc ⊢
          dsimp only at hc ⊢
          rw [hid, Option.some.injEq] at hc
          subst hc
          exact h.slot t b (by rw [hold.getIdentity, hb])
        · rw [he] at hc ⊢
          dsimp only at hc ⊢
          rw [hid, Option.some.injEq] at hc
          subst hc
          refine ⟨fun hcap => by simp [h.not_captured hv] at hcap, fun _ q hq => ?_⟩
          rw [onlyClient_disguise.1.resolveClientBySlot, hres, Option.some.injEq] at hq
          subst hq
          refine ⟨fun _ => ?_, fun hfalse => by simp at hfalse⟩
          rw [World.disguise, client_onLiveController, client_onClient_self]
          exact disguised_writeSteamId_clearFakePlayer
    · obtain ⟨hid, hw⟩ := applyDisguise_frame h.live.exclusive hold hts
      exact (h.slot t).frame hid (by rw [vote_applyDisguise]) id hw

theorem applyDisguiseIfPending_frame (hx : st.ids.Exclusive) (hts : t ≠ s) :
    (applyDisguiseIfPending st s).ids.getIdentity t = st.ids.getIdentity t ∧
      World.Untouched (· = t) st.world (applyDisguiseIfPending st s).world := by
  rcases applyDisguiseIfPending_cases st s with he | ⟨i, hold, he⟩
  · rw [he]
    exact ⟨rfl, .refl⟩
  · rw [he]
    exact applyDisguise_frame hx hold hts

theorem vote_applyDisguiseIfPending : (applyDisguiseIfPending st s).vote = st.vote := by
  rcases applyDisguiseIfPending_cases st s with he | ⟨i, -, he⟩
  · rw [he]
  · rw [he, vote_applyDisguise]

theorem gate_applyDisguiseIfPending : (applyDisguiseIfPending st s).gate = st.gate := by
  rcases applyDisguiseIfPending_cases st s with he | ⟨i, -, he⟩
  · rw [he]
  · rw [he, gate_applyDisguise]

theorem Safe.applyDisguiseIfPending (h : Safe pending st) (s : Int) :
    Safe pending (applyDisguiseIfPending st s) := by
  rcases applyDisguiseIfPending_cases st s with he | ⟨i, hold, he⟩
  · rwa [he]
  · rw [he]
    exact h.applyDisguise hold

/-- Outside a window the pass leaves nothing pending on the slot. -/
theorem Safe.slot_applyDisguiseIfPending (h : Safe pending st) (hg : st.gate.suspended = false)
    (hv : st.vote.active = false) :
    SlotSafe False (Botid.applyDisguiseIfPending st s).ids (Botid.applyDisguiseIfPending st s).vote
      (Botid.applyDisguiseIfPending st s).world s := by
  have hafter := h.applyDisguiseIfPending s
  cases hm : st.ids.isManaged s with
  | false =>
    apply slotSafe_of_not_managed
    rwa [Identities.isManaged_congr slots_applyDisguiseIfPending]
  | true =>
    obtain ⟨i, b, hold, hb, hid⟩ := h.identity_of_managed hm
    intro c hc
    obtain ⟨hcap, hun⟩ := hafter.slot s c hc
    refine ⟨hcap, fun hcs p hp => ⟨(hun hcs p hp).1, fun hca => ?_⟩⟩
    -- a pending identity on a client that resolves would have been applied
    rw [Botid.applyDisguiseIfPending, if_pos hm, hid] at hc hp
    dsimp only at hc hp
    split at hc
    · rename_i ha
      obtain rfl : b = c := Option.some.inj (hid.symm.trans hc)
      simp [ha] at hca
    · rename_i ha
      rw [if_neg ha] at hp
      rw [hold.lookup, Int.toNat_natCast] at hc hp
      cases hres : st.world.resolveClientBySlot s with
      | none =>
        rw [applyDisguise_deferred hg hb (by simpa using ha) (Or.inr hres)] at hp
        simp [hres] at hp
      | some client =>
        rw [applyDisguise_adopted hg hb (by simpa using ha) hv hres] at hc
        dsimp only at hc
        rw [Identities.getIdentity_modifyBot_self hold, hid, Option.map_some, Option.some.injEq] at hc
        rw [← hc] at hca
        simp at hca

/-- The pass over all slots, outside a window, leaves nothing pending anywhere. -/
theorem Safe.applyPending (h : Safe pending st) (hg : st.gate.suspended = false)
    (hv : st.vote.active = false) : Safe False (forSlots Botid.applyDisguiseIfPending st) := by
  have hpass : ∀ (y : State) (t : Int), (Safe pending y ∧ y.gate = st.gate ∧ y.vote = st.vote) →
      Safe pending (Botid.applyDisguiseIfPending y t) ∧
        (Botid.applyDisguiseIfPending y t).gate = st.gate ∧
          (Botid.applyDisguiseIfPending y t).vote = st.vote :=
    fun y t hy => ⟨hy.1.applyDisguiseIfPending t, gate_applyDisguiseIfPending.trans hy.2.1,
      vote_applyDisguiseIfPending.trans hy.2.2⟩
  have hafter := forSlots_invariant hpass ⟨h, rfl, rfl⟩
  refine { hafter.1 with slot := fun s => ?_ }
  cases hm : (forSlots Botid.applyDisguiseIfPending st).ids.isManaged s with
  | false => exact slotSafe_of_not_managed hm
  | true =>
    have hrange := Identities.range_of_isManaged hm
    have hat := forSlots_at _
      (J := fun y => Safe pending y ∧ y.gate = st.gate ∧ y.vote = st.vote)
      (Q := fun y => (Safe pending y ∧ y.gate = st.gate ∧ y.vote = st.vote) ∧
        SlotSafe False y.ids y.vote y.world s) hrange.1 hrange.2
      (fun y t _ hy => hpass y t hy)
      (fun y hy => ⟨hpass y s hy, hy.1.slot_applyDisguiseIfPending (by rw [hy.2.1, hg])
        (by rw [hy.2.2, hv])⟩)
      (fun y t hts hy => ?_) ⟨h, rfl, rfl⟩
    · exact hat.2
    · obtain ⟨hid, hw⟩ := applyDisguiseIfPending_frame hy.1.1.live.exclusive (Ne.symm hts)
      exact ⟨hpass y t hy.1, hy.2.frame hid (by rw [vote_applyDisguiseIfPending]) id hw⟩

end Botid
