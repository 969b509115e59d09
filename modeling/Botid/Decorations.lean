import Botid.PingBase
import Botid.Revalidation
import Botid.StartUp

/-! The cells beside the persona: every ping, crosshair and flair a slot shows is one of the settings. -/
namespace Botid

open Machine

/-- What an identity shows of itself beside its persona. -/
def decoration (b : BotIdentity) : Int × Bytes × UInt32 := (b.ping, b.crosshair, b.scoreboardFlair)

/-- No ping, or one that these settings and this identity list give. -/
def PingShown (f : PluginFeatures) (bots : List BotIdentity) (p : Int) : Prop :=
  p = 0 ∨ f.enableFakePing = true ∧ 0 < p ∧
    ((∃ b ∈ bots, p = b.ping ∧ p < f.fakePingMin) ∨
      (f.fakePingMin ≤ p ∧ p ≤ max f.fakePingMin f.fakePingMax) ∨
      ∃ b ∈ bots, 0 < b.ping ∧ JittersTo (jitterPercent f) b.ping p)

/-- The flair of an identity, or the default one. -/
def flairOf (f : PluginFeatures) (b : BotIdentity) : UInt32 :=
  if 0 < b.scoreboardFlair then b.scoreboardFlair else f.defaultScoreboardFlair

/-- A slot's cells show nothing that is switched off and nothing that was not configured. -/
structure Decorated (f : PluginFeatures) (bots : List BotIdentity) (c : ShmSlot) : Prop where
  ping : PingShown f bots c.currentPing
  crosshair : c.crosshair = List.replicate kCrosshairLen 0 ∨ f.enableCrosshair = true ∧
    ∃ b ∈ bots, b.crosshair ≠ [] ∧ c.crosshair = charCell kCrosshairLen b.crosshair
  flair : c.scoreboardFlair = 0 ∨ f.enableScoreboardFlair = true ∧
    ∃ b ∈ bots, c.scoreboardFlair = flairOf f b

/-- The settings stay, the pool keeps its decorations, and all cells show only these. -/
structure Shows (f : PluginFeatures) (bots : List BotIdentity) (st : State) : Prop where
  features : st.features = f
  pool : st.ids.bots.map decoration = bots.map decoration
  cells : ∀ s, Decorated f bots (st.shm.slot s)

variable {E : EngineCalls} {st st' : State} {f : PluginFeatures} {bots : List BotIdentity} {b c : BotIdentity}
  {cell : ShmSlot} {shm : Shm} {s t : Int} {i : Nat} {r : Rand} {nowSec : Float}

theorem lasting_decoration : Lasting decoration := fun _ _ _ _ => rfl

theorem Shows.listed (h : Shows f bots st) (hb : st.ids.bots[i]? = some b) :
    ∃ c ∈ bots, decoration c = decoration b := by
  have hmem : decoration b ∈ st.ids.bots.map decoration := List.mem_map_of_mem (List.mem_of_getElem? hb)
  rw [h.pool] at hmem
  exact List.mem_map.mp hmem

/-- A publisher that keeps one slot's cells decorated keeps all. -/
theorem decorated_publish {g : ShmSlot → ShmSlot} (h : ∀ s, Decorated f bots (shm.slot s))
    (hg : ∀ c, Decorated f bots c → Decorated f bots (g c)) (s : Int) :
    Decorated f bots ((shm.publish t g).slot s) := by
  rw [Shm.publish]
  split
  · exact h s
  · by_cases hst : s = t
    · subst hst
      simpa using hg _ (h s)
    · simpa [hst] using h s

theorem pickFakePing_shown (hb : c ∈ bots) (heq : decoration c = decoration b)
    (hp : 0 < (pickFakePing f b r).1) : PingShown f bots (pickFakePing f b r).1 := by
  have hping : c.ping = b.ping := congrArg Prod.fst heq
  cases he : f.enableFakePing with
  | false => simp [pickFakePing, he] at hp
  | true =>
    refine Or.inr ⟨he, hp, ?_⟩
    by_cases hown : 0 < b.ping ∧ b.ping < f.fakePingMin
    · left
      rw [pickFakePing, he, if_neg (by simp), if_pos hown]
      exact ⟨c, hb, hping.symm, hown.2⟩
    · right
      left
      by_cases hlt : f.fakePingMin < f.fakePingMax
      · have hbounds := @pickFakePing_bounds f b r he (by omega) hown
        exact ⟨hbounds.1, by omega⟩
      · rw [pickFakePing, he, if_neg (by simp), if_neg hown, if_pos (by omega)]
        exact ⟨by omega, by omega⟩

theorem pickScoreboardFlair_shown (hp : 0 < (pickScoreboardFlair f b r).1) :
    f.enableScoreboardFlair = true ∧ (pickScoreboardFlair f b r).1 = flairOf f b := by
  rw [pickScoreboardFlair] at hp ⊢
  split at hp
  · simp at hp
  · rename_i he
    dsimp only at hp ⊢
    split at hp
    · simp at hp
    · rw [if_neg he]
      rename_i hgate
      rw [if_neg hgate]
      refine ⟨by simpa using he, ?_⟩
      rw [flairOf]
      split <;> rfl

/-- A disguise publishes the decorations of its identity that are switched on. -/
theorem decorated_publishDisguise (h : ∀ s, Decorated f bots (shm.slot s)) (hb : c ∈ bots)
    (heq : decoration c = decoration b) (s : Int) :
    Decorated f bots ((publishDisguise f shm r t b).1.slot s) := by
  have hcode : c.crosshair = b.crosshair := congrArg (fun d => d.2.1) heq
  have hflair : flairOf f c = flairOf f b := by
    rw [flairOf, flairOf, show c.scoreboardFlair = b.scoreboardFlair from congrArg (fun d => d.2.2) heq]
  have hpersona : ∀ s, Decorated f bots (((shm.publishAdopt t b.steamId b.name).bumpIncarnation t).slot s) := by
    refine decorated_publish (decorated_publish h fun d hd => ?_) fun d hd => ?_
    · exact ⟨hd.ping, hd.crosshair, hd.flair⟩
    · exact ⟨hd.ping, hd.crosshair, hd.flair⟩
  have hping : ∀ (shm : Shm) (r : Rand), (∀ s, Decorated f bots (shm.slot s)) → ∀ s, Decorated f bots
      ((if 0 < (pickFakePing f b r).1 then shm.publishPing t (pickFakePing f b r).1 else shm).slot s) := by
    intro shm r h
    split
    · exact decorated_publish h fun d hd => ⟨pickFakePing_shown hb heq ‹_›, hd.crosshair, hd.flair⟩
    · exact h
  have hcrosshair : ∀ shm : Shm, (∀ s, Decorated f bots (shm.slot s)) → ∀ s, Decorated f bots
      ((if f.enableCrosshair ∧ b.crosshair ≠ [] then shm.publishCrosshair t b.crosshair else shm).slot s) := by
    intro shm h
    split
    · rename_i hon
      refine decorated_publish h fun d hd => ⟨hd.ping, Or.inr ⟨hon.1, c, hb, ?_, ?_⟩, hd.flair⟩
      · rw [hcode]
        exact hon.2
      · rw [hcode]
    · exact h
  have hscoreboard : ∀ (shm : Shm) (r : Rand), (∀ s, Decorated f bots (shm.slot s)) → ∀ s, Decorated f bots
      ((if 0 < (pickScoreboardFlair f b r).1 then shm.publishScoreboardFlair t (pickScoreboardFlair f b r).1
        else shm).slot s) := by
    intro shm r h
    split
    · obtain ⟨hon, hpick⟩ := pickScoreboardFlair_shown ‹_›
      refine decorated_publish h fun d hd => ⟨hd.ping, hd.crosshair, Or.inr ⟨hon, c, hb, ?_⟩⟩
      rw [hflair]
      exact hpick
    · exact h
  rw [publishDisguise]
  dsimp only
  split
  · exact hscoreboard _ _ (hcrosshair _ (hping _ _ hpersona)) s
  · exact hscoreboard _ _ (hcrosshair _ hpersona) s

theorem Shows.applyDisguise (h : Shows f bots st) : Shows f bots (applyDisguise st t i) := by
  rcases applyDisguise_cases st t i with heq | ⟨b, -, hb, -, ⟨-, heq⟩ | ⟨client, -, -, heq⟩⟩
  · rwa [heq]
  · rw [heq]
    exact ⟨h.features, (map_modify_of_lasting fun b => lasting_decoration b t b.applied b.reused).trans h.pool,
      h.cells⟩
  · obtain ⟨c, hc, hdecoration⟩ := h.listed hb
    rw [heq]
    refine ⟨h.features, (map_modify_of_lasting fun b => lasting_decoration b t true b.reused).trans h.pool, ?_⟩
    rw [h.features]
    exact decorated_publishDisguise h.cells hc hdecoration

theorem Shows.applyDisguiseIfPending (h : Shows f bots st) : Shows f bots (applyDisguiseIfPending st t) := by
  rcases applyDisguiseIfPending_cases st t with heq | ⟨i, -, heq⟩
  · rwa [heq]
  · rw [heq]
    exact h.applyDisguise

theorem Shows.applyPending (h : Shows f bots st) : Shows f bots (forSlots Botid.applyDisguiseIfPending st) :=
  forSlots_invariant (I := Shows f bots) (fun _ _ h => h.applyDisguiseIfPending) h

theorem decorated_publishRelease (h : ∀ s, Decorated f bots (shm.slot s)) (s : Int) :
    Decorated f bots ((shm.publishRelease t).slot s) := by
  refine decorated_publish h (fun c hd => ?_) s
  exact ⟨hd.ping, hd.crosshair, hd.flair⟩

theorem Shows.restoreIdentity (h : Shows f bots st) : Shows f bots (restoreIdentity st t) := by
  rw [Botid.restoreIdentity]
  split
  · exact h
  · exact ⟨h.features, h.pool, decorated_publishRelease h.cells⟩

theorem Shows.unmark (h : Shows f bots st) : Shows f bots { st with ids := st.ids.unmark t } :=
  ⟨h.features, (map_unmark lasting_decoration).trans h.pool, h.cells⟩

theorem Shows.releaseOccupant (h : Shows f bots st) : Shows f bots (releaseOccupant st t) := by
  rw [Botid.releaseOccupant]
  split
  · exact ⟨h.features, (map_unmark lasting_decoration).trans h.pool, decorated_publishRelease h.cells⟩
  · exact h

theorem Shows.releaseManagedSlots (h : Shows f bots st) : Shows f bots (releaseManagedSlots st) := by
  rw [Botid.releaseManagedSlots]
  refine forSlots_invariant (I := Shows f bots) (fun y t h => ?_) ⟨h.features, h.pool, h.cells⟩
  rw [releaseSlot]
  split
  · exact h
  · exact h.restoreIdentity.unmark

theorem Shows.applyMapGate {name : Bytes} (h : Shows f bots st) : Shows f bots (applyMapGate st name) := by
  obtain ⟨gate, heq⟩ | ⟨-, heq⟩ := @applyMapGate_cases st name
  · rw [heq]
    exact ⟨h.features, h.pool, h.cells⟩
  · have hreleased := h.releaseManagedSlots
    rw [heq]
    exact ⟨hreleased.features, hreleased.pool, hreleased.cells⟩

theorem Shows.pollMapGate (h : Shows f bots st) : Shows f bots (pollMapGate st) := by
  rw [Botid.pollMapGate]
  split
  · exact h
  · exact h.applyMapGate

theorem Shows.hintMapGate {name : Bytes} (h : Shows f bots st) : Shows f bots (hintMapGate st name) := by
  rw [Botid.hintMapGate]
  split
  · exact h
  · exact h.applyMapGate

theorem Shows.restorePlayerIdentity (h : Shows f bots st) : Shows f bots (restorePlayerIdentity st) := by
  rw [Botid.restorePlayerIdentity]
  split
  · exact ⟨h.features, h.pool, h.cells⟩
  · exact Shows.applyPending ⟨h.features, h.pool, h.cells⟩

theorem Shows.forceEndVoteTransaction (h : Shows f bots st) : Shows f bots (forceEndVoteTransaction st) := by
  rw [Botid.forceEndVoteTransaction]
  split
  · exact h
  · exact Shows.restorePlayerIdentity ⟨h.features, h.pool, h.cells⟩

theorem Shows.tickVoteTransaction (h : Shows f bots st) : Shows f bots (tickVoteTransaction st) := by
  rw [Botid.tickVoteTransaction]
  split
  · exact h
  · split
    · exact ⟨h.features, h.pool, h.cells⟩
    · split
      · exact ⟨h.features, h.pool, h.cells⟩
      · dsimp only
        split
        · exact ⟨h.features, h.pool, h.cells⟩
        · exact Shows.restorePlayerIdentity ⟨h.features, h.pool, h.cells⟩

/-- A jitter pass publishes pings around those of the pool. -/
theorem Shows.jitterPings (h : Shows f bots st) : Shows f bots (jitterPings st nowSec) := by
  rw [Botid.jitterPings]
  split
  · exact h
  · rename_i hon
    have he : f.enableFakePing = true := by
      rw [← h.features]
      simpa using hon
    split
    · exact ⟨h.features, h.pool, h.cells⟩
    · refine ⟨h.features, h.pool, ?_⟩
      refine forSlots_invariant (I := fun p : Shm × Rand => ∀ s, Decorated f bots (p.1.slot s)) ?_ h.cells
      rintro ⟨shm, r⟩ t hcells
      by_cases hm : st.ids.isManaged t = true
      · cases hb : st.ids.getIdentity t with
        | none => simpa [jitterSlot, hm, hb] using hcells
        | some b =>
          by_cases hp : 0 < b.ping
          · rw [jitterSlot_of_ping hm hb hp]
            obtain ⟨i, hold, hi⟩ := Identities.holds_of_getIdentity hb
            obtain ⟨c, hc, hdecoration⟩ := h.listed hi
            have hping : c.ping = b.ping := congrArg Prod.fst hdecoration
            have hpct : jitterPercent f = jitterPercent st.features := by rw [h.features]
            refine decorated_publish hcells fun d hd => ⟨Or.inr ⟨he, ?_, ?_⟩, hd.crosshair, hd.flair⟩
            · have := @jitteredPing_bounds (jitterPercent st.features) b.ping r.value
              exact Int.lt_of_lt_of_le (by decide) this.1
            · refine Or.inr (Or.inr ⟨c, hc, by omega, ?_⟩)
              rw [hping, hpct]
              exact jittersTo_jitteredPing
          · have hskip : b.ping ≤ 0 := by omega
            simpa [jitterSlot, hm, hb, hskip] using hcells
      · simpa [jitterSlot, hm] using hcells

/-- Whatever leaves the settings, the registry and the region alone. -/
theorem Shows.congr (h : Shows f bots st) (hsettings : SameSettings st st')
    (hregistry : st'.registry = st.registry) (hshm : st'.shm = st.shm) : Shows f bots st' := by
  have hids : st'.ids = st.ids := congrArg Registry.ids hregistry
  refine ⟨hsettings.2.trans h.features, ?_, ?_⟩
  · rw [hids]
    exact h.pool
  · rw [hshm]
    exact h.cells

theorem Shows.onClientConnected {name : Option Bytes} {xuid : UInt64} {fakePlayer : Bool} (h : Shows f bots st) :
    Shows f bots (onClientConnected st t name xuid fakePlayer) := by
  rcases onClientConnected_cases st t name xuid fakePlayer with ⟨-, heq⟩ | ⟨-, -, -, ⟨-, heq⟩ | ⟨-, heq⟩⟩
  · rwa [heq]
  · rw [heq]
    exact h.releaseOccupant
  · have hreleased : Shows f bots (Botid.releaseOccupant st t) := h.releaseOccupant
    rw [heq]
    rcases assignIdentity_cases (Botid.releaseOccupant st t) t with ⟨bots', r', -, ha⟩ | ⟨i, bots', r', hf, ha⟩
    · rw [ha]
      exact ⟨hreleased.features, hreleased.pool, hreleased.cells⟩
    · rw [ha]
      refine Shows.applyDisguise ⟨hreleased.features, ?_, hreleased.cells⟩
      rw [← hreleased.pool, markIdentity, Identities.bots_mark]
      obtain ⟨b, -, -, ⟨-, rfl⟩ | ⟨rfl, -⟩⟩ := getFree_some hf
      · rfl
      · exact map_modify_of_lasting fun b => lasting_decoration b (-1) false (b.reused + 1)

theorem Shows.dispatchConCommandPre {command : Option Bytes} {arguments : List Bytes} (h : Shows f bots st) :
    Shows f bots (dispatchConCommandPre E st command arguments) := by
  rcases dispatchConCommandPre_cases E st command arguments with
    heq | ⟨-, heq | ⟨t, heq⟩ | ⟨name, target, heq⟩ | ⟨-, -, heq⟩⟩
  · rwa [heq]
  · rw [heq]
    exact h.congr sameSettings_beginVoteTransaction registry_beginVoteTransaction shm_beginVoteTransaction
  · rw [heq]
    exact h.congr sameSettings_kickNamedBot registry_kickNamedBot shm_kickNamedBot
  · rw [heq]
    exact h.congr sameSettings_kickGroup registry_kickGroup shm_kickGroup
  · rw [heq]
    exact h.forceEndVoteTransaction

theorem Shows.dispatchConCommandPost {command : Option Bytes} {arguments : List Bytes} (h : Shows f bots st) :
    Shows f bots (dispatchConCommandPost E st command arguments) := by
  rcases dispatchConCommandPost_cases E st command arguments with
    heq | ⟨-, heq | ⟨arg, -, heq⟩⟩ | ⟨-, heq | ⟨st₁, hst, heq⟩⟩
  · rwa [heq]
  · rw [heq]
    exact h.pollMapGate
  · rw [heq]
    exact h.hintMapGate.pollMapGate
  · rw [heq]
    exact ⟨h.features, h.pool, h.cells⟩
  · have hkick : Shows f bots st₁ := by
      rcases hst with rfl | rfl
      · exact h
      · rw [endKickCommand]
        split
        · exact h
        · dsimp only
          split
          · exact ⟨h.features, h.pool, h.cells⟩
          · exact ⟨h.features, h.pool, h.cells⟩
    rcases heq with heq | heq | ⟨-, heq⟩
    · rwa [heq]
    · rw [heq]
      exact ⟨hkick.features, hkick.pool, hkick.cells⟩
    · rw [heq]
      have hadded : Shows f bots (applyPendingDisguises st₁) := by
        rw [applyPendingDisguises]
        split
        · exact hkick
        · exact hkick.applyPending
      exact ⟨hadded.features, hadded.pool, hadded.cells⟩

theorem Shows.gameFrame (h : Shows f bots st) : Shows f bots (gameFrame E st nowSec) := by
  rw [Botid.gameFrame]
  dsimp only
  split
  · exact h.pollMapGate
  · have htick := h.pollMapGate.tickVoteTransaction
    exact Shows.jitterPings ⟨htick.features, htick.pool, htick.cells⟩

theorem Shows.runHook (h : Shows f bots st) (hook : Hook) : Shows f bots (runHook E st hook) := by
  cases hook with
  | onClientConnected slot name xuid fakePlayer => exact h.onClientConnected
  | clientPutInServer slot =>
    rw [Botid.runHook, clientPutInServer]
    split
    · exact h
    · exact h.applyDisguiseIfPending
  | clientDisconnect slot reason =>
    rw [Botid.runHook]
    rcases clientDisconnect_cases E st slot reason with ⟨-, heq⟩ | ⟨-, pending, heq⟩
    · rwa [heq]
    · have hrestored : Shows f bots (Botid.restoreIdentity { st with
          vote := resetVoteTransactionSlot st.vote slot
          world := worldAtDisconnect E st slot reason } slot) :=
        Shows.restoreIdentity ⟨h.features, h.pool, h.cells⟩
      rw [heq]
      exact ⟨hrestored.features, (map_unmark lasting_decoration).trans h.pool, hrestored.cells⟩
  | dispatchConCommandPre command arguments => exact h.dispatchConCommandPre
  | dispatchConCommandPost command arguments => exact h.dispatchConCommandPost
  | gameFrame nowSec => exact h.gameFrame
  | onLevelInit mapName =>
    cases mapName with
    | none => exact h.pollMapGate
    | some name =>
      rw [Botid.runHook, onLevelInit]
      split
      · exact h.applyMapGate.pollMapGate
      · exact h.pollMapGate

theorem shows_run {es : List Event} (h : Shows f bots st) : Shows f bots (run (step E) st es) := by
  refine run_invariant_of_step (I := Shows f bots) (fun st ev h => ?_) h
  have hw : Shows f bots (st.withWorld ev.world) := ⟨h.features, h.pool, h.cells⟩
  exact hw.runHook ev.hook

/-- Whatever the hooks do, a slot never shows a ping, a crosshair or a flair that the files did not configure,
nor one of a kind that they switched off. -/
theorem decorations_as_configured (E : EngineCalls) (files : Files) (baseDir : Bytes) (mapped : Bool)
    (draws : Nat → Nat) (w : World) (es : List Event) (s : Int) :
    Decorated (startInfo files baseDir).2.features (startInfo files baseDir).2.bots
      ((run (step E) (pluginLoad files baseDir mapped draws w) es).shm.slot s) := by
  have hload : Shows (startInfo files baseDir).2.features (startInfo files baseDir).2.bots
      (pluginLoad files baseDir mapped draws w) := by
    rw [pluginLoad, load]
    exact Shows.pollMapGate ⟨rfl, rfl, fun _ => ⟨Or.inl rfl, Or.inl rfl, Or.inl rfl⟩⟩
  exact (shows_run hload).cells s

end Botid
