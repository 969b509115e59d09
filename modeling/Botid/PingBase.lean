import Botid.Adoption
import Botid.MapHint
import Botid.PingArithmetic

/-! The base that a disguise publishes, and the one its jitter works with. -/
namespace Botid

open Machine

variable {E : EngineCalls} {st st' st'' : State} {f : PluginFeatures} {b c : BotIdentity} {s : Int}
  {i : Nat} {r : Rand} {shm : Shm} {pct base base' ping p : Int} {es : List Event} {ev : Event}

/-- The state in which a game frame reaches the jitter timer. -/
def beforeJitter (E : EngineCalls) (st : State) : State :=
  let st := tickVoteTransaction (pollMapGate st)
  let drained := drainPendingControllerRemovals E st.ids st.pending st.world
  { st with pending := drained.1, world := drained.2 }

/-- The pass over the slots that the timer starts. -/
def jitterPass (st : State) : Shm × Rand :=
  forSlots (jitterSlot (jitterPercent st.features) st.ids) (st.shm, st.rand)

/-- What the plugin never changes while it runs, of what the pings depend on. -/
structure SameConfig (st st' : State) : Prop where
  features : st'.features = st.features
  mapped : st'.shm.mapped = st.shm.mapped
  pings : st'.ids.bots.map BotIdentity.ping = st.ids.bots.map BotIdentity.ping

/-- The slot still holds the identity, and nobody else was published on it. -/
structure SameAdoption (s : Int) (i : Nat) (st st' : State) : Prop where
  holds : st'.ids.Holds s i
  incarnation : (st'.shm.slot s).incarnation = (st.shm.slot s).incarnation

/-- A ping that the jitter may make of this base. -/
def JittersTo (pct base p : Int) : Prop :=
  ∃ q, base - jitterRange pct base ≤ q ∧ q ≤ base + jitterRange pct base ∧ p = clampPing q

/-- The adoption publishes a base by the rules, and every jitter pass while it lasts stays around it.
`rest` is the state in which the hook ends that made the adoption. -/
structure SharesBase (E : EngineCalls) (st : State) (s : Int) (i : Nat) (b : BotIdentity) : Prop where
  published : 0 < (rolledPing st.features b st.rand).1
  outside : b.ping < st.features.fakePingMin ∨ st.features.fakePingMax < b.ping →
    ((applyDisguise st s i).shm.slot s).currentPing = b.ping
  inside : st.features.fakePingMin ≤ b.ping → b.ping ≤ st.features.fakePingMax →
    st.features.fakePingMin ≤ ((applyDisguise st s i).shm.slot s).currentPing ∧
      ((applyDisguise st s i).shm.slot s).currentPing ≤ st.features.fakePingMax
  jitter : ∀ rest, SameConfig (applyDisguise st s i) rest → ∀ es w,
    let frame := (run (step E) rest es).withWorld w
    (pollMapGate frame).gate.suspended = false →
      SameAdoption s i (applyDisguise st s i) (beforeJitter E frame) →
      JittersTo (jitterPercent st.features) ((applyDisguise st s i).shm.slot s).currentPing
        ((jitterPass (beforeJitter E frame)).1.slot s).currentPing

/-- Every adoption of an identity with this ping, from a pool as `LoadBots` bounds it. -/
def PingsShareBase (f : PluginFeatures) (ping : Int) : Prop :=
  ∀ E st s i b, st.features = f → b.ping = ping → st.ids.bots.length ≤ kMaxBotIdentities →
    0 ≤ s → s < kMaxSlots → Adopts st s i b → SharesBase E st s i b

def lowestJitter (pct base : Int) : Int := clampPing (base - jitterRange pct base)
def highestJitter (pct base : Int) : Int := clampPing (base + jitterRange pct base)

/-- The ping is its own base, or its jitter stays in the reach of both ends of the range. -/
def OneBase (f : PluginFeatures) (ping : Int) : Prop :=
  ping < f.fakePingMin ∨
    0 < f.fakePingMin ∧ ping ≤ f.fakePingMax ∧
      lowestJitter (jitterPercent f) ping = lowestJitter (jitterPercent f) f.fakePingMax ∧
      highestJitter (jitterPercent f) ping = highestJitter (jitterPercent f) f.fakePingMin

theorem two_le_jitterRange : 2 ≤ jitterRange pct base := by
  unfold jitterRange
  omega

theorem jittersTo_iff : JittersTo pct base p ↔ lowestJitter pct base ≤ p ∧ p ≤ highestJitter pct base := by
  have hrange : 2 ≤ jitterRange pct base := two_le_jitterRange
  unfold lowestJitter highestJitter clampPing
  constructor
  · rintro ⟨q, hlow, hhigh, rfl⟩
    unfold clampPing
    omega
  · rintro ⟨hlow, hhigh⟩
    refine ⟨max (base - jitterRange pct base) (min p (base + jitterRange pct base)), ?_, ?_, ?_⟩
    · omega
    · omega
    · unfold clampPing
      omega

theorem jitterRange_of_pos (hpct : 0 < pct) (hbase : 0 < base) :
    jitterRange pct base = max (base * pct / 100) 2 := by
  rw [jitterRange, Int.tdiv_eq_ediv_of_nonneg (Int.le_of_lt (Int.mul_pos hbase hpct))]

/-- A larger base reaches higher. -/
theorem highestJitter_mono (hpct : 0 < pct) (hbase : 0 < base) (h : base ≤ base') :
    highestJitter pct base ≤ highestJitter pct base' := by
  have hproduct : base * pct ≤ base' * pct := Int.mul_le_mul_of_nonneg_right h (Int.le_of_lt hpct)
  have hquotient : base * pct / 100 ≤ base' * pct / 100 := Int.ediv_le_ediv (by omega) hproduct
  unfold highestJitter clampPing
  rw [jitterRange_of_pos hpct hbase, jitterRange_of_pos hpct (by omega)]
  omega

/-- And not lower: from 100 percent on, every base reaches down to the least ping. -/
theorem lowestJitter_mono (hpct : 0 < pct) (hbase : 0 < base) (h : base ≤ base') :
    lowestJitter pct base ≤ lowestJitter pct base' := by
  unfold lowestJitter clampPing
  rw [jitterRange_of_pos hpct hbase, jitterRange_of_pos hpct (by omega)]
  rcases (show pct ≤ 100 ∨ 100 ≤ pct by omega) with hsmall | hlarge
  · have hgrowth : (base' - base) * pct ≤ (base' - base) * 100 :=
      Int.mul_le_mul_of_nonneg_left hsmall (by omega)
    rw [Int.sub_mul] at hgrowth
    omega
  · have hwhole : base * 100 ≤ base * pct := Int.mul_le_mul_of_nonneg_left hlarge (by omega)
    omega

/-- The jittered ping is one that its base jitters to. -/
theorem jittersTo_jitteredPing {value : Nat} : JittersTo pct base (jitteredPing pct base value) := by
  have hrange : 2 ≤ jitterRange pct base := two_le_jitterRange
  have hdraw := Int.emod_nonneg (value : Int) (b := 2 * jitterRange pct base + 1) (by omega)
  have hdraw' := Int.emod_lt_of_pos (value : Int) (b := 2 * jitterRange pct base + 1) (by omega)
  exact ⟨_, by omega, by omega, rfl⟩

theorem SameConfig.trans (h : SameConfig st st') (h' : SameConfig st' st'') : SameConfig st st'' :=
  ⟨h'.features.trans h.features, h'.mapped.trans h.mapped, h'.pings.trans h.pings⟩

theorem SameConfig.length_eq (h : SameConfig st st') : st'.ids.bots.length = st.ids.bots.length := by
  have := congrArg List.length h.pings
  rwa [List.length_map, List.length_map] at this

/-- The entry that an identity of the pool has become. -/
theorem SameConfig.entry (h : SameConfig st st') (hb : st.ids.bots[i]? = some b) :
    ∃ c, st'.ids.bots[i]? = some c ∧ c.ping = b.ping := by
  have hping : (st'.ids.bots.map BotIdentity.ping)[i]? = some b.ping := by
    rw [h.pings, List.getElem?_map, hb, Option.map_some]
  rwa [List.getElem?_map, Option.map_eq_some_iff] at hping

theorem sameConfig_applyDisguise : SameConfig st (applyDisguise st s i) := by
  rcases applyDisguise_cases st s i with h | ⟨b, -, -, -, ⟨-, h⟩ | ⟨client, -, -, h⟩⟩
  · rw [h]
    exact ⟨rfl, rfl, rfl⟩
  · rw [h]
    exact ⟨rfl, rfl, map_modify_of_lasting fun _ => rfl⟩
  · rw [h]
    exact ⟨rfl, Shm.mapped_publishDisguise, map_modify_of_lasting fun _ => rfl⟩

theorem sameConfig_step (hn : st.ids.bots.length ≤ kMaxBotIdentities) : SameConfig st (step E st ev) := by
  have hsized : (st.withWorld ev.world).registry.Sized st.ids.bots.length st.shm.mapped := ⟨rfl, rfl⟩
  refine ⟨features_step, (sized_runHook hn hsized ev.hook).2, ?_⟩
  exact map_runHook (fun _ _ _ _ => rfl) (by rwa [List.length_map]) rfl ev.hook

theorem sameConfig_run (hn : st.ids.bots.length ≤ kMaxBotIdentities) :
    SameConfig st (run (step E) st es) :=
  run_invariant_of_step (I := SameConfig st)
    (fun _ _ h => h.trans (sameConfig_step (by rwa [h.length_eq]))) ⟨rfl, rfl, rfl⟩

theorem gameFrame_of_hosted (nowSec : Float) (hosted : (pollMapGate st).gate.suspended = false) :
    gameFrame E st nowSec = jitterPings (beforeJitter E st) nowSec := by
  rw [gameFrame]
  dsimp only
  rw [hosted]
  rfl

/-- The frame up to the timer is a frame without it. -/
theorem sameConfig_beforeJitter (hn : st.ids.bots.length ≤ kMaxBotIdentities)
    (hosted : (pollMapGate st).gate.suspended = false) : SameConfig st (beforeJitter E st) := by
  have hframe : gameFrame E st 0 = jitterPings (beforeJitter E st) 0 := gameFrame_of_hosted 0 hosted
  have hstep : SameConfig st (step E st ⟨st.world, .gameFrame 0⟩) := sameConfig_step hn
  rw [step, runHook, State.withWorld, hframe] at hstep
  have hregistry : (jitterPings (beforeJitter E st) 0).registry = (beforeJitter E st).registry :=
    registry_jitterPings
  have hfeatures : (jitterPings (beforeJitter E st) 0).features = (beforeJitter E st).features := by
    rw [jitterPings]
    split
    · rfl
    · split <;> rfl
  refine ⟨hfeatures.symm.trans hstep.features, ?_, ?_⟩
  · exact (congrArg Registry.mapped hregistry).symm.trans hstep.mapped
  · exact (congrArg (fun r => r.ids.bots.map BotIdentity.ping) hregistry).symm.trans hstep.pings

/-- What the jitter pass publishes for a slot, with whatever is known of the draws to come. -/
theorem jitterPass_slot {V : Nat → Prop} (hold : st.ids.Holds s i) (hc : st.ids.bots[i]? = some c)
    (hp : 0 < c.ping) (hm : st.shm.mapped = true) (hV : ∀ k, V (st.rand.draws (st.rand.pos + k))) :
    ∃ v, V v ∧ ((jitterPass st).1.slot s).currentPing =
      jitteredPing (jitterPercent st.features) c.ping v := by
  obtain ⟨h0, h1⟩ := hold.range
  let J : Shm × Rand → Prop := fun p => p.1.mapped = true ∧ ∀ k, V (p.2.draws (p.2.pos + k))
  let Q : Shm × Rand → Prop := fun p => ∃ v, V v ∧ (p.1.slot s).currentPing =
    jitteredPing (jitterPercent st.features) c.ping v
  apply forSlots_at (jitterSlot (jitterPercent st.features) st.ids) (J := J) (Q := Q) h0 h1
  · rintro p t - ⟨hmapped, hdraws⟩
    rcases jitterSlot_cases (jitterPercent st.features) st.ids p t with h | ⟨ping, h⟩
    · rw [h]
      exact ⟨hmapped, hdraws⟩
    · rw [h]
      refine ⟨Shm.mapped_publish.trans hmapped, fun k => ?_⟩
      have := hdraws (1 + k)
      rwa [← Nat.add_assoc] at this
  · rintro p ⟨hmapped, hdraws⟩
    rw [jitterSlot_of_ping hold.isManaged (hold.getIdentity.trans hc) hp]
    refine ⟨p.2.value, hdraws 0, ?_⟩
    rw [Shm.publishPing, Shm.slot_publish hmapped h0 h1]
  · rintro p t hne ⟨v, hv, hping⟩
    refine ⟨v, hv, ?_⟩
    rcases jitterSlot_cases (jitterPercent st.features) st.ids p t with h | ⟨ping, h⟩
    · rw [h]
      exact hping
    · rw [h, Shm.publishPing, Shm.slot_publish_of_ne hne.symm]
      exact hping
  · exact ⟨hm, hV⟩

/-- Where the ping is no override from below, the configured range decides. -/
theorem pickFakePing_bounds (he : f.enableFakePing = true) (hrange : f.fakePingMin ≤ f.fakePingMax)
    (hown : ¬(0 < b.ping ∧ b.ping < f.fakePingMin)) :
    f.fakePingMin ≤ (pickFakePing f b r).1 ∧ (pickFakePing f b r).1 ≤ f.fakePingMax := by
  by_cases hlt : f.fakePingMin < f.fakePingMax
  · exact pickFakePing_drawn ⟨he, hown, hlt⟩
  · rw [pickFakePing, he, if_neg (by simp), if_neg hown, if_pos (by omega)]
    exact ⟨Int.le_refl _, hrange⟩

theorem currentPing_of_rolled (h : Adopts st s i b) (h0 : 0 ≤ s) (h1 : s < kShmMaxSlots)
    (hp : 0 < (rolledPing st.features b st.rand).1) :
    ((applyDisguise st s i).shm.slot s).currentPing = (rolledPing st.features b st.rand).1 := by
  rw [h.slot_applyDisguise h0 h1, adoptCells, if_pos hp]

/-- Whatever happens after the adoption, a jitter pass works with the ping of the identity. -/
theorem jitter_after (h : Adopts st s i b) (hn : st.ids.bots.length ≤ kMaxBotIdentities)
    (hp : 0 < b.ping) {rest : State} (hrest : SameConfig (applyDisguise st s i) rest) {w : World} :
    let frame := (run (step E) rest es).withWorld w
    (pollMapGate frame).gate.suspended = false → (beforeJitter E frame).ids.Holds s i →
      JittersTo (jitterPercent st.features) b.ping
        ((jitterPass (beforeJitter E frame)).1.slot s).currentPing := by
  intro frame hosted hold
  have hrest' : SameConfig st rest := sameConfig_applyDisguise.trans hrest
  have hrun : SameConfig rest (run (step E) rest es) := sameConfig_run (by rwa [hrest'.length_eq])
  have hframe : SameConfig st frame := hrest'.trans ⟨hrun.features, hrun.mapped, hrun.pings⟩
  have hlater : SameConfig st (beforeJitter E frame) :=
    hframe.trans (sameConfig_beforeJitter (by rwa [hframe.length_eq]) hosted)
  obtain ⟨c, hc, hping⟩ := hlater.entry h.entry
  obtain ⟨v, -, hv⟩ := jitterPass_slot (V := fun _ => True) hold hc (by omega)
    (hlater.mapped.trans h.mapped) fun _ => trivial
  rw [hv, hlater.features, hping]
  exact jittersTo_jitteredPing

theorem sharesBase_of_oneBase (h : Adopts st s i b) (hn : st.ids.bots.length ≤ kMaxBotIdentities)
    (h0 : 0 ≤ s) (h1 : s < kShmMaxSlots) (he : st.features.enableFakePing = true)
    (hrange : st.features.fakePingMin ≤ st.features.fakePingMax) (hp : 0 < b.ping)
    (hone : OneBase st.features b.ping) : SharesBase E st s i b := by
  have hpct : 0 < jitterPercent st.features := jitterPercent_pos
  have hrolled : rolledPing st.features b st.rand = pickFakePing st.features b st.rand := if_pos he
  by_cases hbelow : b.ping < st.features.fakePingMin
  · have hpick : (rolledPing st.features b st.rand).1 = b.ping := by
      rw [hrolled, pickFakePing, he, if_neg (by simp), if_pos ⟨hp, hbelow⟩]
    have hcell := currentPing_of_rolled h h0 h1 (by omega)
    rw [hpick] at hcell
    refine ⟨by omega, fun _ => hcell, fun hle => absurd hle (by omega), ?_⟩
    intro rest hrest es w frame hosted hsame
    rw [hcell]
    exact jitter_after h hn hp hrest hosted hsame.holds
  · obtain ⟨hmin, hmax, hlowest, hhighest⟩ := hone.resolve_left hbelow
    have hbase := pickFakePing_bounds (r := st.rand) he hrange fun hown => hbelow hown.2
    rw [← hrolled] at hbase
    have hcell := currentPing_of_rolled h h0 h1 (by omega)
    refine ⟨by omega, fun hout => absurd hout (by omega), fun _ _ => by rwa [hcell], ?_⟩
    intro rest hrest es w frame hosted hsame
    have hjitter := jitter_after h hn hp hrest hosted hsame.holds
    have hreach := lowestJitter_mono hpct (by omega) hbase.2
    have hreach' := highestJitter_mono hpct hmin hbase.1
    rw [jittersTo_iff] at hjitter
    rw [hcell, jittersTo_iff]
    exact ⟨hreach.trans (hlowest.symm.trans_le hjitter.1), hjitter.2.trans (hhighest.trans_le hreach')⟩

/-- A disguise draws on: for the ping first, and perhaps once more for the flair. -/
theorem rand_publishDisguise : ∃ k, (publishDisguise f shm r s b).2 =
    { (rolledPing f b r).2 with pos := (rolledPing f b r).2.pos + k } := by
  have hrand : (publishDisguise f shm r s b).2 = (pickScoreboardFlair f b (rolledPing f b r).2).2 := by
    cases he : f.enableFakePing with
    | true => simp only [publishDisguise, rolledPing, he, if_true]
    | false => simp only [publishDisguise, rolledPing, he, Bool.false_eq_true, if_false]
  rw [hrand]
  generalize (rolledPing f b r).2 = r'
  have hgate : ∃ k, (flairGateFails f r').2 = { r' with pos := r'.pos + k } := by
    rw [flairGateFails]
    split
    · exact ⟨1, rfl⟩
    · exact ⟨0, rfl⟩
  rw [pickScoreboardFlair]
  split
  · exact ⟨0, rfl⟩
  · dsimp only
    split
    · exact hgate
    · split
      · exact hgate
      · exact hgate

/-- A frame with nothing to do reaches the timer as it began. -/
theorem beforeJitter_quiet (hblack : st.mapBlacklist = []) (hg : st.gate.suspended = false)
    (hv : st.vote = {}) :
    (pollMapGate st).gate.suspended = false ∧ (beforeJitter E st).ids = st.ids ∧
      (beforeJitter E st).shm = st.shm ∧ (beforeJitter E st).rand = st.rand ∧
      (beforeJitter E st).features = st.features := by
  have hpoll : ∃ g, pollMapGate st = { st with gate := { gateMap := g, suspended := false } } := by
    have hsame : st = { st with gate := { gateMap := st.gate.gateMap, suspended := false } } := by
      rw [← hg]
    rw [pollMapGate]
    split
    · exact ⟨_, hsame⟩
    · rw [applyMapGate]
      split
      · exact ⟨_, hsame⟩
      · rw [if_neg (by simp [hblack, mapNameMatchesBlacklist])]
        exact ⟨_, rfl⟩
  obtain ⟨g, hpoll⟩ := hpoll
  have htick : tickVoteTransaction (pollMapGate st) = pollMapGate st := by
    rw [tickVoteTransaction, if_pos]
    rw [hpoll]
    dsimp only
    rw [hv]
    decide
  refine ⟨by rw [hpoll], ?_, ?_, ?_, ?_⟩ <;>
  · rw [beforeJitter, htick, hpoll]

/-- The pass of a quiet frame right behind the adoption. -/
theorem SharesBase.next_pass (h : SharesBase E st s i b)
    (hblack : (applyDisguise st s i).mapBlacklist = [])
    (hg : (applyDisguise st s i).gate.suspended = false) (hv : (applyDisguise st s i).vote = {})
    (hold : (applyDisguise st s i).ids.Holds s i) :
    JittersTo (jitterPercent st.features) ((applyDisguise st s i).shm.slot s).currentPing
      ((jitterPass (applyDisguise st s i)).1.slot s).currentPing := by
  have hjitter := h.jitter _ ⟨rfl, rfl, rfl⟩ [] (applyDisguise st s i).world
  have hframe : (run (step E) (applyDisguise st s i) []).withWorld (applyDisguise st s i).world =
      applyDisguise st s i := rfl
  dsimp only at hjitter
  rw [hframe] at hjitter
  obtain ⟨hosted, hids, hshm, hrand, hfeatures⟩ := beforeJitter_quiet (E := E) hblack hg hv
  have hpass : jitterPass (beforeJitter E (applyDisguise st s i)) = jitterPass (applyDisguise st s i) := by
    rw [jitterPass, hids, hshm, hrand, hfeatures, jitterPass]
  rw [hpass] at hjitter
  exact hjitter hosted ⟨by rwa [hids], by rw [hshm]⟩

/-- A state in which `ApplyDisguise` is about to run for a bot with this ping, the only one. -/
def loneDisguise (f : PluginFeatures) (ping : Int) (draws : Nat → Nat) : State where
  features := f
  mapBlacklist := []
  ids :=
    { bots := [{ name := ascii "INTEL", ping := ping }]
      slots := fun s => if s = 0 then 0 else -1 }
  shm := .init true
  rand := { draws }
  world := .ofClients [100] nodup_solo

theorem adopts_loneDisguise {draws : Nat → Nat} : Adopts (loneDisguise f ping draws) 0 0
    { name := ascii "INTEL", ping := ping } where
  hosting := rfl
  entry := rfl
  pending := rfl
  noWindow := rfl
  client := by
    have h : (World.ofClients [100] nodup_solo).resolveClientBySlot 0 ≠ none := by decide +kernel
    exact h
  mapped := rfl

/-- The ping that is rolled when the first draw of this state decides. -/
theorem rolledPing_loneDisguise (draws : Nat → Nat) (he : f.enableFakePing = true)
    (hge : f.fakePingMin ≤ ping) (hlt : f.fakePingMin < f.fakePingMax) :
    rolledPing f { name := ascii "INTEL", ping := ping } (loneDisguise f ping draws).rand =
      (f.fakePingMin + (draws 0 : Int) % (f.fakePingMax - f.fakePingMin + 1), { draws, pos := 1 }) := by
  rw [rolledPing, if_pos he, pickFakePing, he, if_neg (by simp), if_neg (by dsimp only; omega),
    if_neg (by omega)]
  rfl

/-- The adoption in this state keeps the gate open and no window, and leaves later draws for the jitter. -/
theorem applyDisguise_loneDisguise (draws : Nat → Nat) (he : f.enableFakePing = true)
    (hge : f.fakePingMin ≤ ping) (hlt : f.fakePingMin < f.fakePingMax) :
    let adopted := applyDisguise (loneDisguise f ping draws) 0 0
    adopted.mapBlacklist = [] ∧ adopted.gate.suspended = false ∧ adopted.vote = {} ∧
      adopted.ids.Holds 0 0 ∧
      adopted.ids.bots[0]? = some { name := ascii "INTEL", ping := ping, slot := 0, applied := true } ∧
      ∃ k, adopted.rand = { draws, pos := 1 + k } := by
  intro adopted
  have hadopts : Adopts (loneDisguise f ping draws) 0 0 { name := ascii "INTEL", ping := ping } :=
    adopts_loneDisguise
  obtain ⟨client, hclient⟩ := Option.ne_none_iff_exists'.mp hadopts.client
  obtain ⟨k, hrand⟩ : ∃ k, (publishDisguise f (loneDisguise f ping draws).shm
      (loneDisguise f ping draws).rand 0 { name := ascii "INTEL", ping := ping }).2 = _ :=
    rand_publishDisguise
  rw [rolledPing_loneDisguise draws he hge hlt] at hrand
  have hadopted := applyDisguise_adopted hadopts.hosting hadopts.entry hadopts.pending hadopts.noWindow
    hclient
  dsimp only [adopted]
  rw [hadopted]
  exact ⟨rfl, rfl, rfl, ⟨by decide, by decide, rfl⟩, rfl, k, hrand⟩

theorem PingsShareBase.loneDisguise (h : PingsShareBase f ping) (draws : Nat → Nat) :
    SharesBase .idle (Botid.loneDisguise f ping draws) 0 0 { name := ascii "INTEL", ping := ping } := by
  have hsize : (Botid.loneDisguise f ping draws).ids.bots.length ≤ kMaxBotIdentities := by
    rw [Botid.loneDisguise, List.length_singleton]
    decide
  exact h .idle _ 0 0 _ rfl rfl hsize (by decide) (by decide) adopts_loneDisguise

/-- A ping that is no override from below must be in a positive range. -/
theorem PingsShareBase.in_range (h : PingsShareBase f ping) (he : f.enableFakePing = true)
    (hrange : f.fakePingMin ≤ f.fakePingMax) (hge : f.fakePingMin ≤ ping) :
    0 < f.fakePingMin ∧ ping ≤ f.fakePingMax := by
  have hshare := h.loneDisguise fun _ => 0
  have hpublished := hshare.published
  have hcell := currentPing_of_rolled adopts_loneDisguise (by decide) (by decide) hpublished
  have hown : ¬(0 < ping ∧ ping < f.fakePingMin) := by omega
  have hpick : (rolledPing f { name := ascii "INTEL", ping := ping }
      (Botid.loneDisguise f ping fun _ => 0).rand).1 = f.fakePingMin := by
    rw [rolledPing, if_pos he, pickFakePing, he, if_neg (by simp), if_neg hown]
    split
    · rfl
    · exact (congrArg (f.fakePingMin + ·) (Int.zero_emod _)).trans (Int.add_zero _)
  have hfeatures : (Botid.loneDisguise f ping fun _ => 0).features = f := rfl
  rw [hfeatures, hpick] at hpublished hcell
  refine ⟨hpublished, ?_⟩
  by_contra hover
  have hout := hshare.outside (Or.inr (Int.not_le.mp hover))
  rw [hcell] at hout
  dsimp only at hout
  omega

/-- What this state publishes: the base from the first draw, and then a jitter from the next ones. -/
theorem pings_loneDisguise (v v' : Nat) (he : f.enableFakePing = true) (hping : 0 < ping)
    (hge : f.fakePingMin ≤ ping) (hlt : f.fakePingMin < f.fakePingMax)
    (hbase : 0 < f.fakePingMin + (v : Int) % (f.fakePingMax - f.fakePingMin + 1)) :
    let adopted := applyDisguise (loneDisguise f ping fun n => if n = 0 then v else v') 0 0
    (adopted.shm.slot 0).currentPing =
        f.fakePingMin + (v : Int) % (f.fakePingMax - f.fakePingMin + 1) ∧
      ((jitterPass adopted).1.slot 0).currentPing = jitteredPing (jitterPercent f) ping v' := by
  intro adopted
  let draws : Nat → Nat := fun n => if n = 0 then v else v'
  have hadopts : Adopts (loneDisguise f ping draws) 0 0 { name := ascii "INTEL", ping := ping } :=
    adopts_loneDisguise
  have hrolled := rolledPing_loneDisguise draws he hge hlt
  have hcell := currentPing_of_rolled hadopts (by decide) (by decide)
    ((congrArg Prod.fst hrolled).symm ▸ hbase)
  refine ⟨hcell.trans (congrArg Prod.fst hrolled), ?_⟩
  have hconfig : SameConfig (loneDisguise f ping draws) adopted := sameConfig_applyDisguise
  obtain ⟨-, -, -, hold, hentry, k, hrand⟩ :=
    applyDisguise_loneDisguise draws he hge hlt
  obtain ⟨v'', rfl, hpass⟩ := jitterPass_slot (V := (· = v')) hold hentry hping
    (hconfig.mapped.trans rfl) (by rw [hrand]; intro n; exact if_neg (show 1 + k + n ≠ 0 by omega))
  rwa [hconfig.features] at hpass

/-- What a shared base says of the next frame, for a first draw and for all later ones. -/
theorem PingsShareBase.next_jitter (h : PingsShareBase f ping) (v v' : Nat)
    (he : f.enableFakePing = true) (hping : 0 < ping) (hge : f.fakePingMin ≤ ping)
    (hlt : f.fakePingMin < f.fakePingMax) :
    JittersTo (jitterPercent f) (f.fakePingMin + (v : Int) % (f.fakePingMax - f.fakePingMin + 1))
      (jitteredPing (jitterPercent f) ping v') := by
  have hmin := (h.in_range he (Int.le_of_lt hlt) hge).1
  have hdraw := Int.emod_nonneg (v : Int) (b := f.fakePingMax - f.fakePingMin + 1) (by omega)
  obtain ⟨hbase, hpass⟩ := pings_loneDisguise v v' he hping hge hlt (by omega)
  obtain ⟨hblack, hgate, hvote, hold, -, -⟩ :=
    applyDisguise_loneDisguise (fun n => if n = 0 then v else v') he hge hlt
  have hjitter := (h.loneDisguise fun n => if n = 0 then v else v').next_pass hblack hgate hvote hold
  rwa [hbase, hpass] at hjitter

/-- Only the pings of `OneBase` share their base. -/
theorem PingsShareBase.oneBase (h : PingsShareBase f ping) (he : f.enableFakePing = true)
    (hrange : f.fakePingMin ≤ f.fakePingMax) (hping : 0 < ping) : OneBase f ping := by
  by_cases hbelow : ping < f.fakePingMin
  · exact Or.inl hbelow
  · rw [Int.not_lt] at hbelow
    obtain ⟨hmin, hmax⟩ := h.in_range he hrange hbelow
    refine Or.inr ⟨hmin, hmax, ?_⟩
    have hpct : 0 < jitterPercent f := jitterPercent_pos
    have hreach : 2 ≤ jitterRange (jitterPercent f) ping := two_le_jitterRange
    rcases Int.lt_or_eq_of_le hrange with hlt | heq
    · constructor
      · -- the top of the range, and the least draw of the jitter
        have hjitter := (jittersTo_iff.mp
          (h.next_jitter (f.fakePingMax - f.fakePingMin).toNat 0 he hping hbelow hlt)).1
        have htop : f.fakePingMin + (f.fakePingMax - f.fakePingMin) = f.fakePingMax := by omega
        rw [Int.toNat_of_nonneg (by omega), Int.emod_eq_of_lt (by omega) (by omega), htop] at hjitter
        apply Int.le_antisymm (lowestJitter_mono hpct hping hmax)
        rwa [jitteredPing, Int.natCast_zero, Int.zero_emod, Int.add_zero] at hjitter
      · -- its bottom, and the largest draw
        have hjitter := (jittersTo_iff.mp (h.next_jitter 0
          (2 * jitterRange (jitterPercent f) ping).toNat he hping hbelow hlt)).2
        rw [Int.natCast_zero, Int.zero_emod, Int.add_zero, jitteredPing,
          Int.toNat_of_nonneg (by omega), Int.emod_eq_of_lt (by omega) (by omega)] at hjitter
        apply Int.le_antisymm _ (highestJitter_mono hpct hmin hbelow)
        have hsum : ping + 2 * jitterRange (jitterPercent f) ping - jitterRange (jitterPercent f) ping =
            ping + jitterRange (jitterPercent f) ping := by omega
        rwa [hsum] at hjitter
    · have hsame : ping = f.fakePingMin := by omega
      rw [← heq, hsame]
      exact ⟨rfl, rfl⟩

/-- The pings of one adoption share one base exactly when the ping is below the range, or lies in a
positive one whose ends reach as far down and as far up as the ping does. -/
theorem pings_share_base_iff (he : f.enableFakePing = true) (hrange : f.fakePingMin ≤ f.fakePingMax)
    (hping : 0 < ping) : PingsShareBase f ping ↔ OneBase f ping := by
  constructor
  · intro h
    exact h.oneBase he hrange hping
  · rintro hone E st s i b rfl rfl hn h0 h1 hadopts
    exact sharesBase_of_oneBase hadopts hn h0 h1 he hrange hping hone

theorem pings_share_base_below : PingsShareBase {} 18 :=
  (pings_share_base_iff rfl (by decide) (by decide)).mpr (Or.inl (by decide))

/-- The bot with ping 62, under the default settings: 20 is published, and 80 after 30 seconds. -/
theorem jitter_leaves_base :
    let adopted := applyDisguise (loneDisguise {} 62 fun n => if n = 0 then 0 else 36) 0 0
    (adopted.shm.slot 0).currentPing = 20 ∧ ((jitterPass adopted).1.slot 0).currentPing = 80 ∧
      ¬ JittersTo (jitterPercent {}) 20 80 ∧ ¬ PingsShareBase {} 62 := by
  intro adopted
  have hmin : (20 : Int) ≤ 62 := by decide
  obtain ⟨hbase, hpass⟩ :=
    pings_loneDisguise 0 36 (show PluginFeatures.enableFakePing {} = true from rfl) (by decide) hmin
      (by decide) (by decide)
  refine ⟨hbase, hpass, ?_, fun h => ?_⟩
  · rw [jittersTo_iff]
    decide
  · have hone := h.oneBase rfl (by decide) (by decide)
    unfold OneBase at hone
    revert hone
    decide

end Botid
