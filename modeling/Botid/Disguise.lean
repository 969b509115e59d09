import Botid.State

/-! Putting the player disguise on a slot and taking it off again. -/
namespace Botid

def pickFakePing (f : PluginFeatures) (identity : BotIdentity) (r : Rand) : Int × Rand :=
  if !f.enableFakePing then (0, r)
  else if 0 < identity.ping ∧ identity.ping < f.fakePingMin then (identity.ping, r)
  else if f.fakePingMax ≤ f.fakePingMin then (f.fakePingMin, r)
  else (f.fakePingMin + (r.value : Int) % (f.fakePingMax - f.fakePingMin + 1), r.next)

/-- The probability gate of `PickScoreboardFlair`; it draws only below certainty. -/
def flairGateFails (f : PluginFeatures) (r : Rand) : Bool × Rand :=
  if f.scoreboardFlairProbability < 1.0 then
    (decide ((f.scoreboardFlairProbability * 1000.0).toInt32.toInt ≤ (r.value : Int) % 1000), r.next)
  else (false, r)

def pickScoreboardFlair (f : PluginFeatures) (identity : BotIdentity) (r : Rand) : UInt32 × Rand :=
  if !f.enableScoreboardFlair then (0, r)
  else
    let (fails, r) := flairGateFails f r
    if fails then (0, r)
    else if 0 < identity.scoreboardFlair then (identity.scoreboardFlair, r)
    else (f.defaultScoreboardFlair, r)

/-- The engine half of `ApplyDisguise`: the client, then its controller when it resolves. -/
def World.disguise (w : World) (client : Ptr) (steamId : UInt64) : World :=
  let controller := w.resolveController (getEntityIndex (w.client client))
  (w.onClient client fun m => writeSteamId (clearFakePlayer m) steamId).onLiveController controller
    clearControllerFakeClientFlag

/-- The shared-memory half of `ApplyDisguise`, in the order it publishes. -/
def publishDisguise (f : PluginFeatures) (shm : Shm) (r : Rand) (slot : Int)
    (identity : BotIdentity) : Shm × Rand :=
  let shm := (shm.publishAdopt slot identity.steamId identity.name).bumpIncarnation slot
  let (shm, r) :=
    if f.enableFakePing then
      let (p, r) := pickFakePing f identity r
      (if 0 < p then shm.publishPing slot p else shm, r)
    else (shm, r)
  let shm :=
    if f.enableCrosshair ∧ identity.crosshair ≠ [] then shm.publishCrosshair slot identity.crosshair
    else shm
  let (flair, r) := pickScoreboardFlair f identity r
  (if 0 < flair then shm.publishScoreboardFlair slot flair else shm, r)

/-- `ApplyDisguise`, with the identity pointer as an index into the pool. -/
def applyDisguise (st : State) (slot : Int) (idx : Nat) : State :=
  if st.gate.suspended then st
  else
    match st.ids.bots[idx]? with
    | none => st
    | some identity =>
      if identity.applied then st
      else
        let st := { st with ids := st.ids.modifyBot idx fun b => { b with slot := slot } }
        if st.vote.active then st
        else
          match st.world.resolveClientBySlot slot with
          | none => st
          | some client =>
            let (shm, rand) := publishDisguise st.features st.shm st.rand slot identity
            { st with
              ids := st.ids.modifyBot idx fun b => { b with applied := true }
              world := st.world.disguise client identity.steamId
              shm := shm
              rand := rand }

/-- `GetIdentity` then `ApplyDisguise`, skipping identities already applied. -/
def applyDisguiseIfPending (st : State) (slot : Int) : State :=
  if st.ids.isManaged slot then
    match st.ids.getIdentity slot with
    | some identity =>
      if identity.applied then st else applyDisguise st slot (st.ids.lookup slot).toNat
    | none => st
  else st

/-- The engine half of `RestoreIdentity`: the controller first, then the client. -/
def World.restore (w : World) (client : Ptr) : World :=
  let controller := w.resolveController (getEntityIndex (w.client client))
  (w.onLiveController controller setControllerFakeClientFlag).onClient client fun m =>
    writeSteamId (setFakePlayer m) 0

/-- `RestoreIdentity`: nothing at all, not even `PublishRelease`, when the client is null. -/
def restoreIdentity (st : State) (slot : Int) : State :=
  match st.world.resolveClientBySlot slot with
  | none => st
  | some client =>
    { st with world := st.world.restore client, shm := st.shm.publishRelease slot }

variable {st : State} {s : Int} {i : Nat} {b : BotIdentity} {client : Ptr}

theorem ids_restoreIdentity : (restoreIdentity st s).ids = st.ids := by
  rw [restoreIdentity]
  split <;> rfl

theorem applyDisguise_of_suspended (hg : st.gate.suspended = true) : applyDisguise st s i = st := by
  rw [applyDisguise, if_pos hg]

theorem applyDisguise_of_none (hb : st.ids.bots[i]? = none) : applyDisguise st s i = st := by
  simp [applyDisguise, hb]

theorem applyDisguise_of_applied (hb : st.ids.bots[i]? = some b) (ha : b.applied = true) :
    applyDisguise st s i = st := by
  simp [applyDisguise, hb, ha]

/-- While a window is open, or with a null client, a disguise only claims the slot. -/
theorem applyDisguise_deferred (hg : st.gate.suspended = false) (hb : st.ids.bots[i]? = some b)
    (ha : b.applied = false)
    (hd : st.vote.active = true ∨ st.world.resolveClientBySlot s = none) :
    applyDisguise st s i =
      { st with ids := st.ids.modifyBot i fun b => { b with slot := s } } := by
  simp only [applyDisguise, hg, hb, ha, Bool.false_eq_true, if_false]
  rcases hd with hv | hc
  · rw [if_pos hv]
  · rw [hc]
    split <;> rfl

theorem applyDisguise_adopted (hg : st.gate.suspended = false) (hb : st.ids.bots[i]? = some b)
    (ha : b.applied = false) (hv : st.vote.active = false)
    (hc : st.world.resolveClientBySlot s = some client) :
    applyDisguise st s i =
      { st with
        ids := st.ids.modifyBot i fun b => { b with slot := s, applied := true }
        world := st.world.disguise client b.steamId
        shm := (publishDisguise st.features st.shm st.rand s b).1
        rand := (publishDisguise st.features st.shm st.rand s b).2 } := by
  have hids : (st.ids.modifyBot i fun b => { b with slot := s }).modifyBot i
      (fun b => { b with applied := true }) =
      st.ids.modifyBot i fun b => { b with slot := s, applied := true } := by
    simp [Identities.modifyBot, List.modify_modify_eq, Function.comp_def]
  simp only [applyDisguise, hg, hb, ha, hv, hc, hids, Bool.false_eq_true, if_false]

/-- Everything a call of `ApplyDisguise` can do: nothing, claim the slot, or adopt it. -/
theorem applyDisguise_cases (st : State) (s : Int) (i : Nat) :
    applyDisguise st s i = st ∨
      ∃ b, st.gate.suspended = false ∧ st.ids.bots[i]? = some b ∧ b.applied = false ∧
        (((st.vote.active = true ∨ st.world.resolveClientBySlot s = none) ∧
            applyDisguise st s i =
              { st with ids := st.ids.modifyBot i fun b => { b with slot := s } }) ∨
          ∃ client, st.vote.active = false ∧ st.world.resolveClientBySlot s = some client ∧
            applyDisguise st s i =
              { st with
                ids := st.ids.modifyBot i fun b => { b with slot := s, applied := true }
                world := st.world.disguise client b.steamId
                shm := (publishDisguise st.features st.shm st.rand s b).1
                rand := (publishDisguise st.features st.shm st.rand s b).2 }) := by
  cases hg : st.gate.suspended with
  | true => exact Or.inl (applyDisguise_of_suspended hg)
  | false =>
    cases hb : st.ids.bots[i]? with
    | none => exact Or.inl (applyDisguise_of_none hb)
    | some b =>
      cases ha : b.applied with
      | true => exact Or.inl (applyDisguise_of_applied hb ha)
      | false =>
        refine Or.inr ⟨b, rfl, rfl, ha, ?_⟩
        cases hv : st.vote.active with
        | true => exact Or.inl ⟨Or.inl rfl, applyDisguise_deferred hg hb ha (Or.inl hv)⟩
        | false =>
          cases hc : st.world.resolveClientBySlot s with
          | none => exact Or.inl ⟨Or.inr rfl, applyDisguise_deferred hg hb ha (Or.inr hc)⟩
          | some client =>
            exact Or.inr ⟨client, rfl, rfl, applyDisguise_adopted hg hb ha hv hc⟩

/-- A disguise never moves a slot in or out of management. -/
theorem slots_applyDisguise : (applyDisguise st s i).ids.slots = st.ids.slots := by
  rcases applyDisguise_cases st s i with h | ⟨b, -, -, -, ⟨-, h⟩ | ⟨client, -, -, h⟩⟩ <;> rw [h] <;> rfl

theorem applyDisguiseIfPending_cases (st : State) (s : Int) :
    applyDisguiseIfPending st s = st ∨
      ∃ i, st.ids.Holds s i ∧ applyDisguiseIfPending st s = applyDisguise st s i := by
  rw [applyDisguiseIfPending]
  split
  · split
    · rename_i identity hb
      split
      · exact Or.inl rfl
      · obtain ⟨i, hold, -⟩ := Identities.holds_of_getIdentity hb
        exact Or.inr ⟨i, hold, by rw [hold.lookup, Int.toNat_natCast]⟩
    · exact Or.inl rfl
  · exact Or.inl rfl

theorem slots_applyDisguiseIfPending : (applyDisguiseIfPending st s).ids.slots = st.ids.slots := by
  rcases applyDisguiseIfPending_cases st s with h | ⟨i, -, h⟩
  · rw [h]
  · rw [h, slots_applyDisguise]

end Botid
