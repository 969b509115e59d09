import Botid.LiveIdentities

/-! What an adoption leaves in shared memory, and what of the previous occupant it leaves there. -/
namespace Botid

open Machine

variable {f : PluginFeatures} {r r' : Rand} {b b' : BotIdentity} {shm : Shm} {s : Int}
  {st st' : State} {i i' : Nat}

/-- The same `rand()` results are still to come. -/
def Rand.SameDraws (r r' : Rand) : Prop := ∀ k, r.draws (r.pos + k) = r'.draws (r'.pos + k)

/-- The same identity, wherever it was used before. -/
structure SamePersona (b b' : BotIdentity) : Prop where
  steamId : b.steamId = b'.steamId
  name : b.name = b'.name
  ping : b.ping = b'.ping
  crosshair : b.crosshair = b'.crosshair
  scoreboardFlair : b.scoreboardFlair = b'.scoreboardFlair

/-- Cells equal up to the incarnation. -/
structure SameCells (c c' : ShmSlot) : Prop where
  slotState : c.slotState = c'.slotState
  syntheticSid : c.syntheticSid = c'.syntheticSid
  personaName : c.personaName = c'.personaName
  currentPing : c.currentPing = c'.currentPing
  crosshair : c.crosshair = c'.crosshair
  scoreboardFlair : c.scoreboardFlair = c'.scoreboardFlair

/-- The ping an adoption rolls; with fake pings switched off it rolls none. -/
def rolledPing (f : PluginFeatures) (b : BotIdentity) (r : Rand) : Int × Rand :=
  if f.enableFakePing then pickFakePing f b r else (0, r)

/-- The flair an adoption rolls, after its ping. -/
def rolledFlair (f : PluginFeatures) (b : BotIdentity) (r : Rand) : UInt32 :=
  (pickScoreboardFlair f b (rolledPing f b r).2).1

/-- Crosshairs are switched on and the identity has one. -/
def HasCrosshair (f : PluginFeatures) (b : BotIdentity) : Prop :=
  f.enableCrosshair = true ∧ b.crosshair ≠ []

instance : Decidable (HasCrosshair f b) := inferInstanceAs (Decidable (_ ∧ _))

/-- The cells of a slot after an adoption, from those before. -/
def adoptCells (f : PluginFeatures) (b : BotIdentity) (r : Rand) (c : ShmSlot) : ShmSlot where
  slotState := 1
  syntheticSid := b.steamId
  personaName := charCell kShmNameLen b.name
  currentPing := if 0 < (rolledPing f b r).1 then (rolledPing f b r).1 else c.currentPing
  crosshair := if HasCrosshair f b then charCell kCrosshairLen b.crosshair else c.crosshair
  scoreboardFlair := if 0 < rolledFlair f b r then rolledFlair f b r else c.scoreboardFlair
  incarnation := c.incarnation + 1

theorem slot_publishDisguise (hm : shm.mapped = true) (h0 : 0 ≤ s) (h1 : s < kShmMaxSlots) :
    (publishDisguise f shm r s b).1.slot s = adoptCells f b r (shm.slot s) := by
  have hpub : ∀ (shm' : Shm) (g : ShmSlot → ShmSlot), shm'.mapped = true →
      (shm'.publish s g).slot s = g (shm'.slot s) := fun _ _ hm' => Shm.slot_publish hm' h0 h1
  simp only [publishDisguise, adoptCells, rolledFlair, rolledPing,
    Shm.publishAdopt, Shm.bumpIncarnation, Shm.publishPing, Shm.publishCrosshair,
    Shm.publishScoreboardFlair]
  by_cases hc : HasCrosshair f b
  · have hc' : f.enableCrosshair = true ∧ b.crosshair ≠ [] := hc
    simp only [if_pos hc, if_pos hc']
    split <;> split <;> split <;> simp_all [Shm.mapped_publish]
  · have hc' : ¬ (f.enableCrosshair = true ∧ b.crosshair ≠ []) := hc
    simp only [if_neg hc, if_neg hc']
    split <;> split <;> split <;> simp_all [Shm.mapped_publish]

theorem Rand.SameDraws.value (h : r.SameDraws r') : r.value = r'.value := h 0

theorem Rand.SameDraws.next (h : r.SameDraws r') : r.next.SameDraws r'.next := by
  intro k
  have := h (1 + k)
  simpa only [Rand.next, Nat.add_assoc] using this

theorem pickFakePing_same (hb : SamePersona b b') (hr : r.SameDraws r') :
    (pickFakePing f b r).1 = (pickFakePing f b' r').1 ∧
      (pickFakePing f b r).2.SameDraws (pickFakePing f b' r').2 := by
  simp only [pickFakePing, hb.ping, hr.value]
  split
  · exact ⟨rfl, hr⟩
  · split
    · exact ⟨rfl, hr⟩
    · split
      · exact ⟨rfl, hr⟩
      · exact ⟨rfl, hr.next⟩

theorem rolledPing_same (hb : SamePersona b b') (hr : r.SameDraws r') :
    (rolledPing f b r).1 = (rolledPing f b' r').1 ∧
      (rolledPing f b r).2.SameDraws (rolledPing f b' r').2 := by
  simp only [rolledPing]
  split
  · exact pickFakePing_same hb hr
  · exact ⟨rfl, hr⟩

theorem pickScoreboardFlair_same (hb : SamePersona b b') (hr : r.SameDraws r') :
    (pickScoreboardFlair f b r).1 = (pickScoreboardFlair f b' r').1 := by
  have hgate : (flairGateFails f r).1 = (flairGateFails f r').1 := by
    simp only [flairGateFails, hr.value]
    split <;> rfl
  simp only [pickScoreboardFlair, hgate, hb.scoreboardFlair]
  split
  · rfl
  · split
    · rfl
    · split <;> rfl

/-- Everything the roll depends on is the persona, the features and the draws. -/
theorem rolledFlair_same (hb : SamePersona b b') (hr : r.SameDraws r') :
    rolledFlair f b r = rolledFlair f b' r' :=
  pickScoreboardFlair_same hb (rolledPing_same hb hr).2

/-- Two adoptions of one identity with the same draws leave the same cells exactly when every cell
that they do not rewrite was the same before. -/
theorem sameCells_adoptCells {c c' : ShmSlot} (hb : SamePersona b b') (hr : r.SameDraws r') :
    SameCells (adoptCells f b r c) (adoptCells f b' r' c') ↔
      ((rolledPing f b r).1 ≤ 0 → c.currentPing = c'.currentPing) ∧
      (¬ HasCrosshair f b → c.crosshair = c'.crosshair) ∧
      (rolledFlair f b r = 0 → c.scoreboardFlair = c'.scoreboardFlair) := by
  have hping := (rolledPing_same (f := f) hb hr).1
  have hflair := rolledFlair_same (f := f) hb hr
  have hcross : HasCrosshair f b' ↔ HasCrosshair f b := by
    simp only [HasCrosshair, hb.crosshair]
  constructor
  · intro h
    refine ⟨fun hp => ?_, fun hc => ?_, fun hfl => ?_⟩
    · simpa only [adoptCells, ← hping, if_neg (not_lt.mpr hp)] using h.currentPing
    · simpa only [adoptCells, if_neg hc, if_neg (mt hcross.mp hc)] using h.crosshair
    · simpa only [adoptCells, ← hflair, hfl, if_neg (by decide : ¬ (0 : UInt32) < 0)]
        using h.scoreboardFlair
  · rintro ⟨hp, hc, hfl⟩
    refine ⟨rfl, hb.steamId, ?_, ?_, ?_, ?_⟩
    · simp only [adoptCells, hb.name]
    · simp only [adoptCells, ← hping]
      split
      · rfl
      · exact hp (by omega)
    · simp only [adoptCells, hcross, ← hb.crosshair]
      split
      · rfl
      · exact hc ‹_›
    · simp only [adoptCells, ← hflair]
      split
      · rfl
      · exact hfl (by simpa using ‹¬ 0 < rolledFlair f b r›)

/-- A call of `ApplyDisguise` on this state adopts the entry on the slot. -/
structure Adopts (st : State) (s : Int) (i : Nat) (b : BotIdentity) : Prop where
  hosting : st.gate.suspended = false
  entry : st.ids.bots[i]? = some b
  pending : b.applied = false
  noWindow : st.vote.active = false
  client : st.world.resolveClientBySlot s ≠ none
  mapped : st.shm.mapped = true

theorem Adopts.slot_applyDisguise (h : Adopts st s i b) (h0 : 0 ≤ s) (h1 : s < kShmMaxSlots) :
    (applyDisguise st s i).shm.slot s = adoptCells st.features b st.rand (st.shm.slot s) := by
  obtain ⟨client, hc⟩ := Option.ne_none_iff_exists'.mp h.client
  rw [applyDisguise_adopted h.hosting h.entry h.pending h.noWindow hc]
  exact slot_publishDisguise h.mapped h0 h1

/-- After any two histories, two adoptions of one identity with the same draws publish the same
exactly when the cells they leave alone were the same before; and a missing crosshair and a flair
roll of 0 are published as such exactly when the slot had none before. -/
theorem adoption_forgets_iff (h : Adopts st s i b) (h' : Adopts st' s i' b')
    (hb : SamePersona b b') (hf : st.features = st'.features) (hr : st.rand.SameDraws st'.rand)
    (h0 : 0 ≤ s) (h1 : s < kShmMaxSlots) :
    let before := st.shm.slot s
    let before' := st'.shm.slot s
    let after := (applyDisguise st s i).shm.slot s
    let after' := (applyDisguise st' s i').shm.slot s
    (SameCells after after' ↔
      ((rolledPing st.features b st.rand).1 ≤ 0 → before.currentPing = before'.currentPing) ∧
      (¬ HasCrosshair st.features b → before.crosshair = before'.crosshair) ∧
      (rolledFlair st.features b st.rand = 0 →
        before.scoreboardFlair = before'.scoreboardFlair)) ∧
    ((¬ HasCrosshair st.features b → cstr after.crosshair = []) ∧
        (rolledFlair st.features b st.rand = 0 → after.scoreboardFlair = 0) ↔
      (¬ HasCrosshair st.features b → cstr before.crosshair = []) ∧
        (rolledFlair st.features b st.rand = 0 → before.scoreboardFlair = 0)) := by
  intro before before' after after'
  have hafter : after = adoptCells st.features b st.rand before := h.slot_applyDisguise h0 h1
  have hafter' : after' = adoptCells st'.features b' st'.rand before' :=
    h'.slot_applyDisguise h0 h1
  refine ⟨?_, ?_⟩
  · rw [hafter, hafter', ← hf]
    exact sameCells_adoptCells hb hr
  · rw [hafter]
    apply and_congr
    · refine forall_congr' fun hc => ?_
      simp only [adoptCells, if_neg hc]
    · refine forall_congr' fun hfl => ?_
      simp only [adoptCells, hfl, if_neg (by decide : ¬ (0 : UInt32) < 0)]

/-- Two bots with crosshairs published, only the first of which has one. -/
def crosshairLoad : State :=
  load { PluginFeatures.plain with enableCrosshair := true } []
    { bots := [{ name := ascii "INTEL", crosshair := ascii "CSGO" }, { name := ascii "IMPERIAL" }]
      count_le := by decide
      slot_eq := by decide
      not_applied := by decide
      name_le := by decide }
    true (fun n => n) (.ofClients [100, 400] nodup_duo)

/-- A state whose slot 0 waits for the disguise of the first bot, with a crosshair left over. -/
def pendingState (crosshair : Bytes) : State :=
  { crosshairLoad with
    ids := crosshairLoad.ids.mark 0 0
    shm := crosshairLoad.shm.publishCrosshair 0 crosshair }

theorem adoption_forgets_crosshair :
    SameCells ((applyDisguise (pendingState (ascii "OLD")) 0 0).shm.slot 0)
      ((applyDisguise (pendingState []) 0 0).shm.slot 0) := by
  have hosting : crosshairLoad.gate.suspended = false := by decide +kernel
  have hentry : (crosshairLoad.ids.mark 0 0).bots[0]? =
      some { name := ascii "INTEL", crosshair := ascii "CSGO" } := by decide +kernel
  have hvote : crosshairLoad.vote.active = false := by decide +kernel
  have hclient : crosshairLoad.world.resolveClientBySlot 0 ≠ none := by decide +kernel
  have hadopts : ∀ old, Adopts (pendingState old) 0 0
      { name := ascii "INTEL", crosshair := ascii "CSGO" } :=
    fun _ => ⟨hosting, hentry, rfl, hvote, hclient, Shm.mapped_publish⟩
  have hcross : HasCrosshair (pendingState (ascii "OLD")).features
      { name := ascii "INTEL", crosshair := ascii "CSGO" } := by decide +kernel
  exact (adoption_forgets_iff (hadopts _) (hadopts _) ⟨rfl, rfl, rfl, rfl, rfl⟩ rfl (fun _ => rfl)
    (by decide) (by decide)).1.mpr
    ⟨fun _ => by decide +kernel, fun hc => absurd hcross hc, fun _ => by decide +kernel⟩

/-- The second bot gets the slot that the first one has just left. -/
def inheritRun : List Event :=
  [onTwoClients 0 (.onClientConnected 0 none 0 true), onTwoClients 0 (.clientDisconnect 0 2),
    onTwoClients 0 (.onClientConnected 0 none 0 true)]

/-- The second bot gets a slot that nobody has used yet. -/
def freshSlotRun : List Event :=
  [onTwoClients 0 (.onClientConnected 1 none 0 true),
    onTwoClients 0 (.onClientConnected 0 none 0 true)]

/-- Both runs end with the adoption of the bot without a crosshair, and publish two crosshairs. -/
theorem adoption_inherits_crosshair :
    let inherited := run (step .idle) crosshairLoad inheritRun
    let fresh := run (step .idle) crosshairLoad freshSlotRun
    (∀ st ∈ [inherited, fresh],
      (st.ids.getIdentity 0).map (fun b => (b.name, b.crosshair, b.applied)) =
        some (ascii "IMPERIAL", [], true) ∧ st.rand.pos = 2) ∧
      ¬ SameCells (inherited.shm.slot 0) (fresh.shm.slot 0) ∧
      cstr (inherited.shm.slot 0).crosshair = ascii "CSGO" := by
  refine ⟨by decide +kernel, fun h => absurd h.crosshair ?_, by decide +kernel⟩
  decide +kernel

end Botid
