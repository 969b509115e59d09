import Botid.Writes

/-! Real players are never held as managed bots, as long as every release reaches its slot. -/
namespace Botid

open Machine

variable {E : EngineCalls} {st : State} {ev : Event} {s t : Int} {real : Int → Bool}
  {r : Registry} {i : Nat} {b : BotIdentity}

/-- Which slots a real player was the last to connect to. -/
def trackReal (real : Int → Bool) (_ : State) (ev : Event) : Int → Bool :=
  match ev.hook with
  | .onClientConnected slot _ xuid fakePlayer =>
    if xuid ≠ 0 then Function.update real slot true
    else if fakePlayer then Function.update real slot false
    else real
  | _ => real

/-- Nothing keeps the plugin from releasing a slot that shared memory still publishes: no real
player called HLTV arrives on a managed slot, and clients resolve when their slots are let go. -/
def ReleasesReach (E : EngineCalls) (st : State) (ev : Event) : Prop :=
  match ev.hook with
  | .onClientConnected slot name xuid _ =>
    isHltvName name = true → xuid ≠ 0 → st.ids.isManaged slot = false
  | .clientDisconnect slot reason =>
    (st.shm.slot slot).slotState ≠ 0 →
      (worldAtDisconnect E (st.withWorld ev.world) slot reason).resolveClientBySlot slot ≠ none
  | hook =>
    (st.withWorld ev.world).OffersBlacklisted hook →
      ∀ s, (st.shm.slot s).slotState ≠ 0 → ev.world.resolveClientBySlot s ≠ none

/-- Real players' slots are unmanaged, and unmanaged slots are published as state 0. -/
structure PlayersFree (real : Int → Bool) (r : Registry) : Prop where
  mapped : r.mapped = true
  size : r.ids.bots.length ≤ kMaxBotIdentities
  unmanaged : ∀ s, real s = true → r.ids.isManaged s = false
  released : ∀ s, r.ids.isManaged s = false → (r.record s).slotState = 0

theorem PlayersFree.vacate (h : PlayersFree real r) : PlayersFree real (r.vacate s) := by
  refine ⟨by simpa using h.mapped, by simpa [Identities.length_bots_unmark] using h.size, ?_, ?_⟩
  · intro t ht
    rw [Registry.ids_vacate, ← Bool.not_eq_true, Identities.isManaged_unmark, h.unmanaged t ht]
    simp
  · intro t ht
    by_cases hts : t = s
    · subst hts
      rw [Registry.record_vacate_self h.mapped]
      rfl
    · rw [Registry.record_vacate_of_ne hts]
      apply h.released
      rw [Registry.ids_vacate, ← Bool.not_eq_true, Identities.isManaged_unmark] at ht
      simpa [hts] using ht

/-- Without the release of its cells, a slot may only be let go when nothing is published. -/
theorem PlayersFree.abandon (h : PlayersFree real r) (hs : (r.record s).slotState = 0) :
    PlayersFree real (r.abandon s) := by
  refine ⟨h.mapped, by simpa [Identities.length_bots_unmark] using h.size, ?_, ?_⟩
  · intro t ht
    rw [Registry.ids_abandon, ← Bool.not_eq_true, Identities.isManaged_unmark, h.unmanaged t ht]
    simp
  · intro t ht
    rw [Registry.record_abandon]
    by_cases hts : t = s
    · rw [hts, hs]
    · apply h.released
      rw [Registry.ids_abandon, ← Bool.not_eq_true, Identities.isManaged_unmark] at ht
      simpa [hts] using ht

theorem PlayersFree.take {bots : List BotIdentity} (h : PlayersFree real r)
    (hs : real s = false) (hlen : bots.length = r.ids.bots.length)
    (hm : r.ids.isManaged s = false) : PlayersFree real (r.take s i bots) := by
  refine ⟨h.mapped, ?_, ?_, ?_⟩
  · rw [Registry.take, Identities.bots_mark, hlen]
    exact h.size
  · intro t ht
    have hts : t ≠ s := by
      rintro rfl
      simp [hs] at ht
    rw [Registry.take, Identities.isManaged_mark_of_ne hts]
    exact h.unmanaged t ht
  · intro t ht
    rw [Registry.record_take]
    by_cases hts : t = s
    · rw [hts]
      exact h.released s hm
    · apply h.released
      rwa [Registry.take, Identities.isManaged_mark_of_ne hts] at ht

theorem PlayersFree.disguiseRule : DisguiseRule (PlayersFree real) fun _ => True := by
  rintro r s i b h - hold - -
  refine ⟨⟨h.mapped, by simpa using h.size, h.unmanaged, h.released⟩,
    ⟨by simpa using h.mapped, by simpa using h.size, ?_, ?_⟩⟩
  · intro t ht
    simpa using h.unmanaged t ht
  · intro t ht
    have hts : t ≠ s := by
      rintro rfl
      simp [hold.isManaged] at ht
    rw [Registry.record_adopt_of_ne hts]
    exact h.released t (by simpa using ht)

/-- The invariant while a gate is evaluated: what is published can also be released. -/
def GateReady (real : Int → Bool) (st : State) (hook : Hook) (r : Registry) : Prop :=
  PlayersFree real r ∧
    (st.OffersBlacklisted hook →
      ∀ s, (r.record s).slotState ≠ 0 → st.world.resolveClientBySlot s ≠ none)

theorem gateReady_releaseRule {hook : Hook} (ho : st.OffersBlacklisted hook) :
    ReleaseRule st.world (GateReady real st hook) (GateReady real st hook) := by
  refine ⟨fun _ h => h, ?_, ?_, fun _ h _ => h⟩
  · rintro r s ⟨h, hready⟩ - hc
    have hs : (r.record s).slotState = 0 := by
      by_contra hne
      exact hready ho s hne hc
    exact ⟨h.abandon hs, hready⟩
  · rintro r s ⟨h, hready⟩ - -
    refine ⟨h.vacate, fun _ t ht => ?_⟩
    by_cases hts : t = s
    · subst hts
      rw [Registry.record_vacate_self h.mapped] at ht
      exact absurd rfl ht
    · rw [Registry.record_vacate_of_ne hts] at ht
      exact hready ho t ht

theorem PlayersFree.weaken {real' : Int → Bool} (h : PlayersFree real r)
    (hreal : ∀ t, real' t = true → real t = true ∨ r.ids.isManaged t = false) :
    PlayersFree real' r :=
  { h with unmanaged := fun t ht => (hreal t ht).elim (h.unmanaged t) id }

theorem playersFree_onClientConnected {slot : Int} {name : Option Bytes} {xuid : UInt64}
    {fakePlayer : Bool} (hok : isHltvName name = true → xuid ≠ 0 → st.ids.isManaged slot = false)
    (h : PlayersFree real st.registry) :
    PlayersFree (trackReal real st ⟨st.world, .onClientConnected slot name xuid fakePlayer⟩)
      (onClientConnected st slot name xuid fakePlayer).registry := by
  have hreal : ∀ t, trackReal real st ⟨st.world, .onClientConnected slot name xuid fakePlayer⟩ t =
      true → (t = slot ∧ xuid ≠ 0) ∨ real t = true := by
    intro t ht
    simp only [trackReal] at ht
    by_cases hx : xuid = 0
    · by_cases hts : t = slot <;> cases fakePlayer <;> simp_all
    · by_cases hts : t = slot <;> simp_all
  apply onClientConnected_rule
  · intro hc
    apply h.weaken
    intro t ht
    rcases hreal t ht with ⟨rfl, hx⟩ | ht
    · exact Or.inr (hc.elim (fun hn => hok hn hx) id)
    · exact Or.inl ht
  · intro _ _
    apply h.vacate.weaken
    intro t ht
    rcases hreal t ht with ⟨rfl, -⟩ | ht
    · exact Or.inr (by simpa using Identities.isManaged_unmark_self)
    · exact Or.inl ht
  · rintro ⟨-, h0, h1, -, rfl, rfl⟩ hreleased i bots r' b hf hb
    have hlen := length_getFree hf
    have hlt := (List.getElem?_eq_some_iff.mp hb).1
    refine .of_disguiseRule hb h0 h1 (lt_of_lt_of_le (hlen ▸ hlt) hreleased.size) ?_
      fun r s i b hr _ => PlayersFree.disguiseRule r s i b hr trivial
    apply hreleased.take _ hlen isManaged_releaseOccupant
    simp [trackReal]

theorem playersFree_step (hok : ReleasesReach E st ev) (h : PlayersFree real st.registry) :
    PlayersFree (trackReal real st ev) (step E st ev).registry := by
  obtain ⟨w, hook⟩ := ev
  have hw : PlayersFree real (st.withWorld w).registry := h
  cases hook with
  | onClientConnected slot name xuid fakePlayer =>
    exact playersFree_onClientConnected hok hw
  | clientPutInServer slot =>
    exact clientPutInServer_rule (fun r s i b h _ => PlayersFree.disguiseRule r s i b h trivial) hw
  | clientDisconnect slot reason =>
    refine clientDisconnect_rule hw fun _ => ⟨fun hc => hw.abandon ?_, fun _ => hw.vacate⟩
    by_contra hne
    exact hok hne hc
  | dispatchConCommandPre command arguments =>
    exact dispatchConCommandPre_rule (fun _ => PlayersFree.disguiseRule) hw
  | dispatchConCommandPost command arguments =>
    refine (dispatchConCommandPost_rule (I := GateReady real (st.withWorld w) _)
      gateReady_releaseRule ?_ ⟨hw, hok⟩).1
    intro hadd r s i b hr hs hold hb ha
    have := PlayersFree.disguiseRule r s i b hr.1 hs hold hb ha
    have hno : ¬ (st.withWorld w).OffersBlacklisted (.dispatchConCommandPost command arguments) :=
      not_offersBlacklisted_of_isBotAddCommand hadd
    exact ⟨⟨this.1, fun ho => absurd ho hno⟩, ⟨this.2, fun ho => absurd ho hno⟩⟩
  | gameFrame nowSec =>
    exact gameFrame_rule (I := GateReady real (st.withWorld w) _) gateReady_releaseRule
      (fun _ hr => hr.1) (fun _ _ => PlayersFree.disguiseRule) ⟨hw, hok⟩
  | onLevelInit mapName =>
    exact (onLevelInit_rule (I := GateReady real (st.withWorld w) _) gateReady_releaseRule
      ⟨hw, hok⟩).1

/-- When every release reaches its slot, real players' slots stay free through the whole run. -/
theorem playersFree_run {features : PluginFeatures} {mapBlacklist : List Bytes} {pool : LoadedPool}
    {draws : Nat → Nat} {w : World} {es : List Event}
    (hok : Guarded (step E) (ReleasesReach E) (load features mapBlacklist pool true draws w) es) :
    PlayersFree (observe (step E) trackReal (load features mapBlacklist pool true draws w)
      (fun _ => false) es) (run (step E) (load features mapBlacklist pool true draws w) es).registry := by
  have hinit : PlayersFree (fun _ => false)
      (load features mapBlacklist pool true draws w).registry := by
    rw [registry_load]
    exact ⟨rfl, pool.count_le, by simp, fun _ _ => rfl⟩
  exact observe_invariant (I := fun (st : State) real => PlayersFree real st.registry)
    (fun _ _ _ => playersFree_step) hok hinit

/-- No hook may write a slot that is a real player's, before it or by it. -/
theorem not_mayWrite_of_real (h : PlayersFree real st.registry) (hs : trackReal real st ev s = true) :
    ¬ st.mayWrite ev.hook s := by
  intro hwrite
  cases hook : ev.hook with
  | onClientConnected slot name xuid fakePlayer =>
    -- a connect writes a bot's slot, and that is no real player's any more
    rw [hook] at hwrite
    obtain ⟨rfl, rfl, rfl⟩ := hwrite
    simp [trackReal, hook] at hs
  | _ =>
    rw [hook] at hwrite
    have hreal : real s = true := by simpa [trackReal, hook] using hs
    exact absurd (hwrite.symm.trans (h.unmanaged s hreal)) (by simp)

/-- One bot of the list, on a server with one client. -/
def soloLoad : State :=
  load .plain [] (.single (ascii "INTEL") 0 intel_fits) true (fun _ => 0)
    (.ofClients [100] nodup_solo)

/-- The engine calls a hook with the client of slot 0 in place. -/
def onSolo (hook : Hook) : Event := ⟨.ofClients [100] nodup_solo, hook⟩

/-- The engine calls a hook while no client resolves. -/
def onNobody (hook : Hook) : Event := ⟨.ofClients [] List.nodup_nil, hook⟩

/-- A bot leaves while its client is null, and a player takes the slot. -/
def nullClientRun : List Event :=
  [onSolo (.onClientConnected 0 none 0 true), onNobody (.clientDisconnect 0 2),
    onSolo (.onClientConnected 0 none 7 false)]

end Botid
