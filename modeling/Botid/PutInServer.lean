import Botid.RealPlayers

/-! What the put-in-server retry completes: the two fake-client marks of a slot. -/
namespace Botid

open Machine ByteMem

variable {E : EngineCalls} {st : State} {w : World} {s : Int} {p c : Ptr} {sid : UInt64}

/-- The slot's client and its controller, where both resolve, carry no fake-client mark. -/
def MarksClear (w : World) (s : Int) : Prop :=
  ∀ p c, w.resolveClientBySlot s = some p →
    w.resolveController (getEntityIndex (w.client p)) = some c →
    controllerFlags (w.controller c) &&& kFakeClientBit = 0 ∧ w.client p offFakePlayer = 0

/-- The slot holds an identity whose disguise is still pending. -/
def AwaitsDisguise (ids : Identities) (s : Int) : Prop :=
  ∃ b, ids.getIdentity s = some b ∧ b.applied = false

theorem onlyMemory_disguise : w.OnlyMemory (w.disguise p sid) := by
  rw [World.disguise]
  exact World.onlyMemory_onClient.trans World.onlyMemory_onLiveController

/-- The disguise leaves the entity index alone. -/
theorem getEntityIndex_disguise {m : Mem} :
    getEntityIndex (writeSteamId (clearFakePlayer m) sid) = getEntityIndex m := by
  refine congrArg toInt32 (readLE_congr fun k hk => ?_)
  rw [writeSteamId_out (by simp only [offEntityIndex, offSteamID]; omega), clearFakePlayer_of_ne]
  · simp only [offEntityIndex, offConnectionTypeFlags]
    omega
  · simp only [offEntityIndex, offFakePlayer]
    omega

/-- Disguising a slot's client clears both marks. -/
theorem marksClear_disguise (hp : w.resolveClientBySlot s = some p) :
    MarksClear (w.disguise p sid) s := by
  intro q c hq hc
  have hqp : q = p := by
    rw [onlyMemory_disguise.resolveClientBySlot, hp] at hq
    exact (Option.some.inj hq).symm
  subst hqp
  have hclient : (w.disguise q sid).client q = writeSteamId (clearFakePlayer (w.client q)) sid := by
    simp [World.disguise]
  rw [hclient] at hc ⊢
  rw [getEntityIndex_disguise, onlyMemory_disguise.resolveController] at hc
  refine ⟨?_, disguised_writeSteamId_clearFakePlayer.1⟩
  rw [World.disguise, hc, World.onLiveController, World.controller_onController_self]
  exact controllerFlags_clear

/-- The marks of a slot whose client does not resolve are clear for want of one. -/
theorem marksClear_of_none (h : w.resolveClientBySlot s = none) : MarksClear w s := by
  intro p c hp
  simp [h] at hp

/-- The retry runs for a pending identity only. -/
theorem clientPutInServer_of_not_awaits (h : ¬ AwaitsDisguise st.ids s) :
    clientPutInServer st s = st := by
  rw [clientPutInServer]
  split
  · rfl
  · rw [applyDisguiseIfPending]
    split
    · split
      · rename_i b hb
        rw [if_pos]
        by_contra ha
        exact h ⟨b, hb, by simpa using ha⟩
      · rfl
    · rfl

theorem clientPutInServer_of_awaits (hg : st.gate.suspended = false) (hv : st.vote.active = false)
    (h : AwaitsDisguise st.ids s) : MarksClear (clientPutInServer st s).world s := by
  obtain ⟨b, hb, ha⟩ := h
  obtain ⟨i, hold, hbi⟩ := Identities.holds_of_getIdentity hb
  have hrange := hold.range
  rw [clientPutInServer, if_neg (by simp [hg]; omega), applyDisguiseIfPending, if_pos hold.isManaged,
    hb]
  simp only [ha, Bool.false_eq_true, if_false, hold.lookup, Int.toNat_natCast]
  cases hc : st.world.resolveClientBySlot s with
  | none =>
    rw [applyDisguise_deferred hg hbi ha (Or.inr hc)]
    exact marksClear_of_none hc
  | some client =>
    rw [applyDisguise_adopted hg hbi ha hv hc]
    exact marksClear_disguise hc

/-- After the put-in-server hook of any run the marks are clear exactly when the identity was still
pending, or no mark was left before; so a controller that comes up marked keeps its mark exactly
when the identity was applied without it. -/
theorem put_in_server_clears_iff {features : PluginFeatures} {mapBlacklist : List Bytes}
    {pool : LoadedPool} {mapped : Bool} {draws : Nat → Nat} {w₀ : World} {es : List Event}
    (hg : (run (step E) (load features mapBlacklist pool mapped draws w₀) es).gate.suspended = false)
    (hv : (run (step E) (load features mapBlacklist pool mapped draws w₀) es).vote.active = false) :
    let st := run (step E) (load features mapBlacklist pool mapped draws w₀) es
    let st' := step E st ⟨w, .clientPutInServer s⟩
    (MarksClear st'.world s ↔ AwaitsDisguise st.ids s ∨ MarksClear w s) ∧
      (∀ p c, w.resolveClientBySlot s = some p →
        w.resolveController (getEntityIndex (w.client p)) = some c →
        controllerFlags (w.controller c) &&& kFakeClientBit ≠ 0 →
        (MarksClear st'.world s ↔ AwaitsDisguise st.ids s)) := by
  intro st st'
  have hiff : MarksClear st'.world s ↔ AwaitsDisguise st.ids s ∨ MarksClear w s := by
    constructor
    · intro h
      by_cases ha : AwaitsDisguise st.ids s
      · exact Or.inl ha
      · have hst' : st' = st.withWorld w :=
          clientPutInServer_of_not_awaits ha
        rw [hst'] at h
        exact Or.inr h
    · intro h
      by_cases ha : AwaitsDisguise st.ids s
      · exact clientPutInServer_of_awaits hg hv ha
      · have hst' : st' = st.withWorld w :=
          clientPutInServer_of_not_awaits ha
        rw [hst']
        exact h.resolve_left ha
  refine ⟨hiff, fun p c hp hc hbit => ?_⟩
  rw [hiff, or_iff_left]
  exact fun h => hbit (h p c hp hc).1

/-- A fake client whose entity index is 5, on a server where that entity is up or not. -/
def serverWithEntity (up : Bool) (client controller : Mem) : World :=
  { World.ofClients [100] nodup_solo with
    client := fun _ => client
    entity := fun i => if up && i = 5 then some (900, ascii "cs_player_controller") else none
    controller := fun _ => controller }

/-- The engine's fresh client object: marked as a fake client, with entity index 5. -/
def freshClient : Mem := writeLE (fun a => if a = offFakePlayer then 1 else 0) offEntityIndex 4 5

/-- The engine's fresh controller object, with the fake-client bit set. -/
def freshController : Mem := writeLE (fun _ => 0) offControllerFakeClientFlags 4 kFakeClientBit.toNat

theorem put_in_server_clears_after_null_connect :
    let st := run (step .idle) soloLoad [onNobody (.onClientConnected 0 none 0 true)]
    MarksClear (step .idle st ⟨serverWithEntity true freshClient freshController,
      .clientPutInServer 0⟩).world 0 := by
  intro st
  apply (put_in_server_clears_iff (by decide +kernel) (by decide +kernel)).1.mpr
  refine Or.inl ⟨(st.ids.getIdentity 0).getD {}, ?_, by decide +kernel⟩
  rfl

/-- The bot connects before its controller exists; the disguise counts as applied, and the retry
leaves the controller's bit set. -/
theorem put_in_server_leaves_controller_marked :
    let connected := step .idle soloLoad
      ⟨serverWithEntity false freshClient freshController, .onClientConnected 0 none 0 true⟩
    let engine := serverWithEntity true (connected.world.client 100) freshController
    let st := step .idle connected ⟨engine, .clientPutInServer 0⟩
    st.ids.isManaged 0 = true ∧ st.gate.suspended = false ∧ st.vote.active = false ∧
      ¬ MarksClear st.world 0 := by
  intro connected engine st
  refine ⟨by decide +kernel, by decide +kernel, by decide +kernel, fun h => ?_⟩
  exact absurd (h 100 900 (by decide +kernel) (by decide +kernel)).1 (by decide +kernel)

end Botid
