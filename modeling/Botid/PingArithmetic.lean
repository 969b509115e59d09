import Botid.BotList
import Botid.Hooks
import Botid.SignedArith

/-! The arithmetic behind the pings, in the `int` the plugin computes with. -/
namespace Botid

variable {f : PluginFeatures} {b c : BotIdentity} {r : Rand} {info : BotInfo} {pct base value p : Int}

/-- `INT_MAX`, and the largest result of `rand()`. -/
def kIntMax : Int := 2147483647

/-- `PickFakePing` in `int`, on what `rand()` returns. -/
def pickFakePingInt (f : PluginFeatures) (identity : BotIdentity) (value : Int) : Option Int :=
  if !f.enableFakePing then some 0
  else if 0 < identity.ping ∧ identity.ping < f.fakePingMin then some identity.ping
  else if f.fakePingMax ≤ f.fakePingMin then some f.fakePingMin
  else do
    let spread ← Signed.sub 32 f.fakePingMax f.fakePingMin
    let count ← Signed.add 32 spread 1
    let draw ← Signed.rem 32 value count
    Signed.add 32 f.fakePingMin draw

/-- The bounds of a jittered ping. -/
def clampPing (p : Int) : Int := min (max p 5) 250

/-- The jitter of one ping in `int`, on what `rand()` returns. -/
def jitterInt (pct base value : Int) : Option Int := do
  let product ← Signed.mul 32 base pct
  let quotient ← Signed.div 32 product 100
  let range := max quotient 2
  let doubled ← Signed.mul 32 2 range
  let count ← Signed.add 32 doubled 1
  let draw ← Signed.rem 32 value count
  let sum ← Signed.add 32 base draw
  let jitter ← Signed.sub 32 sum range
  some (clampPing jitter)

/-- The percentage the jitter loop works with. -/
def jitterPercent (f : PluginFeatures) : Int := if 0 < f.pingJitterPercent then f.pingJitterPercent else 30

/-- How far a ping may move from its base. -/
def jitterRange (pct base : Int) : Int := max ((base * pct).tdiv 100) 2

/-- The jittered ping, with the exact results. -/
def jitteredPing (pct base value : Int) : Int :=
  clampPing (base + value % (2 * jitterRange pct base + 1) - jitterRange pct base)

/-- `PickFakePing` comes to its last line, which draws. -/
def DrawsPing (f : PluginFeatures) (b : BotIdentity) : Prop :=
  f.enableFakePing = true ∧ ¬(0 < b.ping ∧ b.ping < f.fakePingMin) ∧ f.fakePingMin < f.fakePingMax

/-- Whatever `rand()` returns, the pings of this identity are computed inside `int`, the drawn one is
in the configured range, and the jittered one is published as computed, between 5 and 250. -/
structure SafePings (f : PluginFeatures) (b : BotIdentity) : Prop where
  pick : ∀ r : Rand, (r.value : Int) ≤ kIntMax →
    pickFakePingInt f b r.value = some (pickFakePing f b r).1
  drawn : ∀ r : Rand, DrawsPing f b →
    f.fakePingMin ≤ (pickFakePing f b r).1 ∧ (pickFakePing f b r).1 ≤ f.fakePingMax
  jitter : f.enableFakePing = true → 0 < b.ping → ∀ r : Rand, (r.value : Int) ≤ kIntMax →
    ∃ p, jitterInt (jitterPercent f) b.ping r.value = some p ∧ 5 ≤ p ∧ p ≤ 250 ∧
      ∀ ids shm s c, ids.isManaged s = true → ids.getIdentity s = some c → c.ping = b.ping →
        jitterSlot (jitterPercent f) ids (shm, r) s = (shm.publishPing s p, r.next)

/-- The settings stay below where the arithmetic of this identity's pings leaves `int`. -/
structure ModeratePings (f : PluginFeatures) (b : BotIdentity) : Prop where
  spread : DrawsPing f b → f.fakePingMax - f.fakePingMin < kIntMax
  product : 0 < b.ping → b.ping * jitterPercent f ≤ kIntMax
  base : b.ping ≤ 2105376125

theorem kIntMax_eq : kIntMax = 2147483647 := rfl

theorem fits_iff {x : Int} : Signed.Fits 32 x ↔ -2147483648 ≤ x ∧ x ≤ kIntMax := by
  unfold Signed.Fits kIntMax
  omega

theorem jitterPercent_pos : 0 < jitterPercent f := by
  unfold jitterPercent
  split
  · assumption
  · decide

theorem jitteredPing_bounds : 5 ≤ jitteredPing pct base value ∧ jitteredPing pct base value ≤ 250 := by
  unfold jitteredPing clampPing
  omega

/-- What one pass of the jitter loop publishes. -/
theorem jitterSlot_of_ping {ids : Identities} {shm : Shm} {s : Int} (hm : ids.isManaged s = true)
    (hc : ids.getIdentity s = some c) (hp : 0 < c.ping) :
    jitterSlot pct ids (shm, r) s = (shm.publishPing s (jitteredPing pct c.ping r.value), r.next) := by
  rw [jitterSlot, hm, hc]
  dsimp only [Bool.not_true, Bool.false_eq_true, if_false]
  exact if_neg (Int.not_le.mpr hp)

/-- The last line of `PickFakePing` succeeds where its range can be counted. -/
theorem pickFakePingInt_draws (hd : DrawsPing f b)
    (hmin : Signed.Fits 32 f.fakePingMin) (hmax : Signed.Fits 32 f.fakePingMax)
    (hspread : f.fakePingMax - f.fakePingMin < kIntMax) (h0 : 0 ≤ value) (h1 : value ≤ kIntMax) :
    pickFakePingInt f b value =
      some (f.fakePingMin + value % (f.fakePingMax - f.fakePingMin + 1)) := by
  obtain ⟨he, hown, hlt⟩ := hd
  have hdraw := Int.emod_nonneg value (b := f.fakePingMax - f.fakePingMin + 1) (by omega)
  have hdraw' := Int.emod_lt_of_pos value (b := f.fakePingMax - f.fakePingMin + 1) (by omega)
  rw [fits_iff] at hmin hmax
  have hsub := Signed.sub_of_fits (w := 32) (x := f.fakePingMax) (y := f.fakePingMin)
    (fits_iff.mpr (by omega))
  have hcount := Signed.add_of_fits (w := 32) (x := f.fakePingMax - f.fakePingMin) (y := 1)
    (fits_iff.mpr (by omega))
  have hrem := Signed.rem_of_nonneg (w := 32) (x := value) (y := f.fakePingMax - f.fakePingMin + 1)
    (fits_iff.mpr (by omega)) h0 (by omega)
  have hadd := Signed.add_of_fits (w := 32) (x := f.fakePingMin)
    (y := value % (f.fakePingMax - f.fakePingMin + 1)) (fits_iff.mpr (by omega))
  rw [pickFakePingInt, he, if_neg (by simp), if_neg hown, if_neg (by omega)]
  simp only [hsub, hcount, hrem, hadd, Option.bind_eq_bind, Option.bind_some]

/-- The jitter succeeds where the product and the largest sum fit. -/
theorem jitterInt_of_fits (hpct : 0 < pct) (hbase : 0 < base) (hproduct : base * pct ≤ kIntMax)
    (hsum : base + 2 * jitterRange pct base ≤ kIntMax) (h0 : 0 ≤ value) (h1 : value ≤ kIntMax) :
    jitterInt pct base value = some (jitteredPing pct base value) := by
  have hmax := kIntMax_eq
  have hpos : 0 ≤ base * pct := Int.le_of_lt (Int.mul_pos hbase hpct)
  have hmul := Signed.mul_of_fits (w := 32) (x := base) (y := pct)
    (fits_iff.mpr (by omega))
  have hdiv := Signed.div_of_nonneg (w := 32) (x := base * pct) (y := 100)
    (fits_iff.mpr (by omega)) hpos (by omega)
  have hrange : jitterRange pct base = max (base * pct / 100) 2 := by
    rw [jitterRange, Int.tdiv_eq_ediv_of_nonneg hpos]
  have hdraw := Int.emod_nonneg value (b := 2 * jitterRange pct base + 1) (by omega)
  have hdraw' := Int.emod_lt_of_pos value (b := 2 * jitterRange pct base + 1) (by omega)
  have hdouble := Signed.mul_of_fits (w := 32) (x := 2) (y := jitterRange pct base)
    (fits_iff.mpr (by omega))
  have hcount := Signed.add_of_fits (w := 32) (x := 2 * jitterRange pct base) (y := 1)
    (fits_iff.mpr (by omega))
  have hrem := Signed.rem_of_nonneg (w := 32) (x := value) (y := 2 * jitterRange pct base + 1)
    (fits_iff.mpr (by omega)) h0 (by omega)
  have hadd := Signed.add_of_fits (w := 32) (x := base)
    (y := value % (2 * jitterRange pct base + 1)) (fits_iff.mpr (by omega))
  have hsub := Signed.sub_of_fits (w := 32)
    (x := base + value % (2 * jitterRange pct base + 1)) (y := jitterRange pct base)
    (fits_iff.mpr (by omega))
  simp only [jitterInt, hmul, hdiv, ← hrange, hdouble, hcount, hrem, hadd, hsub, Option.bind_eq_bind,
    Option.bind_some, jitteredPing]

/-- Where the jitter succeeds, its product and its sum fit. -/
theorem fits_of_jitterInt (hpct : 0 < pct) (hbase : 0 < base) (h0 : 0 ≤ value) (h1 : value ≤ kIntMax)
    (h : jitterInt pct base value = some p) :
    base * pct ≤ kIntMax ∧ base + value % (2 * jitterRange pct base + 1) ≤ kIntMax := by
  have hmax := kIntMax_eq
  have hpos : 0 ≤ base * pct := Int.le_of_lt (Int.mul_pos hbase hpct)
  simp only [jitterInt, Option.bind_eq_bind, Option.bind_eq_some_iff] at h
  obtain ⟨product, hmul, quotient, hdiv, doubled, hdouble, count, hcount, draw, hrem, sum, hadd, -⟩ := h
  obtain ⟨hproduct, rfl⟩ := Signed.mul_eq_some.mp hmul
  rw [Signed.div_of_nonneg hproduct hpos (by omega), Option.some.injEq] at hdiv
  have hrange : jitterRange pct base = max quotient 2 := by
    rw [jitterRange, Int.tdiv_eq_ediv_of_nonneg hpos, hdiv]
  obtain ⟨-, rfl⟩ := Signed.mul_eq_some.mp hdouble
  obtain ⟨-, rfl⟩ := Signed.add_eq_some.mp hcount
  rw [← hrange, Signed.rem_of_nonneg (fits_iff.mpr (by omega)) h0 (by omega),
    Option.some.injEq] at hrem
  obtain ⟨hsum, rfl⟩ := Signed.add_eq_some.mp hadd
  rw [hrem]
  exact ⟨(fits_iff.mp hproduct).2, (fits_iff.mp hsum).2⟩

/-- The two bounds of `ModeratePings` are those of the product and of the largest sum. -/
theorem largest_sum_iff (hpct : 0 < pct) (hbase : 0 < base) (hproduct : base * pct ≤ kIntMax) :
    base + 2 * jitterRange pct base ≤ kIntMax ↔ base ≤ 2105376125 := by
  have hpos : 0 ≤ base * pct := Int.le_of_lt (Int.mul_pos hbase hpct)
  have hmax := kIntMax_eq
  rw [jitterRange, Int.tdiv_eq_ediv_of_nonneg hpos]
  -- from 2 percent on, the product bounds the base far below
  rcases (show pct = 1 ∨ 2 ≤ pct by omega) with rfl | htwo
  · omega
  · have hbound : base * 2 ≤ base * pct := Int.mul_le_mul_of_nonneg_left htwo (by omega)
    omega

theorem SafePings.moderate (h : SafePings f b) (he : f.enableFakePing = true) : ModeratePings f b := by
  have hmax := kIntMax_eq
  have hpct : 0 < jitterPercent f := jitterPercent_pos
  -- the draw that makes the largest sum
  have hjitter : ∀ value : Nat, (value : Int) ≤ kIntMax → 0 < b.ping →
      b.ping * jitterPercent f ≤ kIntMax ∧
        b.ping + value % (2 * jitterRange (jitterPercent f) b.ping + 1) ≤ kIntMax := by
    intro value hvalue hping
    obtain ⟨p, hp, -⟩ := h.jitter he hping { draws := fun _ => value } hvalue
    exact fits_of_jitterInt hpct hping (Int.natCast_nonneg value) hvalue hp
  refine ⟨fun hd => ?_, fun hping => (hjitter 0 (by decide) hping).1, ?_⟩
  · have hpick := h.pick { draws := fun _ => 0 } (by decide)
    obtain ⟨-, hown, hlt⟩ := hd
    rw [pickFakePingInt, he, if_neg (by simp), if_neg hown, if_neg (by omega)] at hpick
    simp only [Option.bind_eq_bind, Option.bind_eq_some_iff] at hpick
    obtain ⟨spread, hsub, count, hcount, -⟩ := hpick
    obtain ⟨-, rfl⟩ := Signed.sub_eq_some.mp hsub
    have hfits := fits_iff.mp (Signed.add_eq_some.mp hcount).1
    omega
  · by_contra hbig
    have hping : 0 < b.ping := by omega
    have hproduct := (hjitter 0 (by decide) hping).1
    have hpos : 0 ≤ b.ping * jitterPercent f := Int.le_of_lt (Int.mul_pos hping hpct)
    have hrange : 2 ≤ jitterRange (jitterPercent f) b.ping ∧
        2 * jitterRange (jitterPercent f) b.ping ≤ kIntMax := by
      rw [jitterRange, Int.tdiv_eq_ediv_of_nonneg hpos]
      omega
    have hsum := (hjitter (2 * jitterRange (jitterPercent f) b.ping).toNat (by omega) hping).2
    rw [Int.toNat_of_nonneg (by omega), Int.emod_eq_of_lt (by omega) (by omega)] at hsum
    exact hbig ((largest_sum_iff hpct hping hproduct).mp hsum)

/-- The drawn ping is in the configured range. -/
theorem pickFakePing_drawn (hd : DrawsPing f b) :
    f.fakePingMin ≤ (pickFakePing f b r).1 ∧ (pickFakePing f b r).1 ≤ f.fakePingMax := by
  obtain ⟨he, hown, hlt⟩ := hd
  have hdraw := Int.emod_nonneg (r.value : Int) (b := f.fakePingMax - f.fakePingMin + 1) (by omega)
  have hdraw' := Int.emod_lt_of_pos (r.value : Int) (b := f.fakePingMax - f.fakePingMin + 1) (by omega)
  rw [pickFakePing, he, if_neg (by simp), if_neg hown, if_neg (by omega)]
  dsimp only
  omega

/-- Moderate settings are safe; with fake pings switched off all are. -/
theorem safePings_of_moderate (h : f.enableFakePing = true → ModeratePings f b)
    (hmin : Signed.Fits 32 f.fakePingMin) (hmax : Signed.Fits 32 f.fakePingMax) : SafePings f b := by
  refine ⟨fun r hr => ?_, fun r hd => pickFakePing_drawn hd, fun he hping r hr => ?_⟩
  · cases he : f.enableFakePing with
    | false => simp [pickFakePingInt, pickFakePing, he]
    | true =>
      by_cases hown : 0 < b.ping ∧ b.ping < f.fakePingMin
      · simp [pickFakePingInt, pickFakePing, he, hown]
      · by_cases hle : f.fakePingMax ≤ f.fakePingMin
        · simp [pickFakePingInt, pickFakePing, he, hown, hle]
        · have hd : DrawsPing f b := ⟨he, hown, by omega⟩
          rw [pickFakePingInt_draws hd hmin hmax ((h he).spread hd) (Int.natCast_nonneg _) hr,
            pickFakePing, he, if_neg (by simp), if_neg hown, if_neg hle]
  · have hpct : 0 < jitterPercent f := jitterPercent_pos
    have hproduct := (h he).product hping
    have hsum := (largest_sum_iff hpct hping hproduct).mpr (h he).base
    have ⟨hlow, hhigh⟩ : 5 ≤ jitteredPing (jitterPercent f) b.ping r.value ∧
        jitteredPing (jitterPercent f) b.ping r.value ≤ 250 := jitteredPing_bounds
    refine ⟨_, jitterInt_of_fits hpct hping hproduct hsum (Int.natCast_nonneg _) hr, hlow, hhigh, ?_⟩
    intro ids shm s c hm hc hping'
    rw [jitterSlot_of_ping hm hc (by omega), hping']

/-- The range of the drawn ping is within `int`. -/
def IntRange (f : PluginFeatures) : Prop :=
  Signed.Fits 32 f.fakePingMin ∧ Signed.Fits 32 f.fakePingMax

theorem fits_readInt {s : Bytes} : Signed.Fits 32 (readInt s).1 :=
  ⟨Int32.le_toInt _, Int32.toInt_lt _⟩

theorem intRange_onFeature (key s : Bytes) (h : IntRange f) : IntRange (onFeature key f s).1 := by
  unfold onFeature
  dsimp only
  split
  · exact h
  · split
    · exact ⟨fits_readInt, h.2⟩
    · split
      · exact ⟨h.1, fits_readInt⟩
      · repeat' split
        all_goals exact h

theorem intRange_onSetting (key s : Bytes) (h : IntRange info.features) :
    IntRange (onSetting key info s).1.features := by
  rw [onSetting]
  by_cases hfeatures : key = ascii "features"
  · rw [if_pos hfeatures]
    refine readBlock_invariant (I := IntRange) (fun key f s hf => ?_) h
    rw [blockMember]
    exact intRange_onFeature key s hf
  · rw [if_neg hfeatures]
    split
    · exact h
    · exact h

/-- Whatever `config.json` holds, the range it leaves is within `int`. -/
theorem intRange_load {file : Option Bytes} (h : IntRange info.features) :
    IntRange (info.load file).2.features := by
  have hclamp : ∀ f, IntRange f → IntRange (clampHoldFrames f) := by
    intro f hf
    unfold clampHoldFrames
    dsimp only
    repeat' split
    all_goals exact hf
  unfold BotInfo.load
  split
  · exact h
  · dsimp only
    split
    · exact hclamp _ (readMembers_invariant (I := fun info : BotInfo => IntRange info.features)
        (fun key _ s hi => intRange_onSetting key s hi) h)
    · exact h

/-- What the plugin has read when it starts: `config.json`, then the identity list. -/
def BotInfo.ofFiles (config identities : Option Bytes) : BotInfo :=
  ((BotInfo.load {} config).2.loadBots identities).2

/-- The ping arithmetic is safe for exactly the moderate settings. -/
theorem pings_safe_iff (config identities : Option Bytes) :
    (∀ b ∈ (BotInfo.ofFiles config identities).bots,
      SafePings (BotInfo.ofFiles config identities).features b) ↔
    ((BotInfo.ofFiles config identities).features.enableFakePing = true →
      ∀ b ∈ (BotInfo.ofFiles config identities).bots,
        ModeratePings (BotInfo.ofFiles config identities).features b) := by
  have hrange : IntRange (BotInfo.ofFiles config identities).features := by
    rw [BotInfo.ofFiles, features_loadBots]
    exact intRange_load ⟨by decide, by decide⟩
  constructor
  · intro h he b hb
    exact (h b hb).moderate he
  · intro h b hb
    exact safePings_of_moderate (fun he => h he b hb) hrange.1 hrange.2

/-- The range of `fakePingMin` 0 and `fakePingMax` 2147483647 has one value more than `int` can count. -/
def widestRange : BotInfo :=
  .ofFiles (some (ascii "\x7b\"features\":\x7b\"fakePingMin\":0,\"fakePingMax\":2147483647\x7d\x7d"))
    (some (ascii "\x7b\"bots\":\x7b\"INTEL\":\x7b\x7d\x7d\x7d"))

theorem widestRange_unsafe : ¬ ∀ b ∈ widestRange.bots, SafePings widestRange.features b := by
  have hbots : widestRange.bots.map BotIdentity.ping = [0] := by decide +kernel
  have hmin : widestRange.features.fakePingMin = 0 := by decide +kernel
  have hmax : widestRange.features.fakePingMax = 2147483647 := by decide +kernel
  have he : widestRange.features.enableFakePing = true := by decide +kernel
  intro h
  have hmem : (0 : Int) ∈ widestRange.bots.map BotIdentity.ping := by simp [hbots]
  obtain ⟨b, hb, hping⟩ := List.mem_map.mp hmem
  have hspread := ((h b hb).moderate he).spread ⟨he, by omega, by omega⟩
  have hint := kIntMax_eq
  omega

end Botid
