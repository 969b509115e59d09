import Botid.BotRecords
import Botid.Settings

/-! Settings written from values, and what they load as. -/
namespace Botid

variable {s X : Bytes} {c : UInt8} {f : PluginFeatures} {info : BotInfo} {n : Nat}

/-- A feature that `Load` knows, with the value it is given. -/
inductive Feature
  | enableFakePing (v : Bool)
  | fakePingMin (v : Nat)
  | fakePingMax (v : Nat)
  | enableScoreboardFlair (v : Bool)
  | scoreboardFlairProbability (literal : Bytes)
  | enableCrosshair (v : Bool)
  | defaultScoreboardFlair (v : Nat)
  | pingJitterPercent (v : Nat)
  | voteTransactionHoldFrames (v : Nat)

def flagText (v : Bool) : Bytes := if v then ascii "true" else ascii "false"

/-- The bytes of decimal literals: digits, signs, the point and the exponent's letter. -/
def isDecimalByte (c : UInt8) : Bool := isDigit c ∨ c = 43 ∨ c = 45 ∨ c = 46 ∨ c = 69 ∨ c = 101

namespace Feature

def key : Feature → Bytes
  | enableFakePing _ => ascii "enableFakePing"
  | fakePingMin _ => ascii "fakePingMin"
  | fakePingMax _ => ascii "fakePingMax"
  | enableScoreboardFlair _ => ascii "enableScoreboardFlair"
  | scoreboardFlairProbability _ => ascii "scoreboardFlairProbability"
  | enableCrosshair _ => ascii "enableCrosshair"
  | defaultScoreboardFlair _ => ascii "defaultScoreboardFlair"
  | pingJitterPercent _ => ascii "pingJitterPercent"
  | voteTransactionHoldFrames _ => ascii "voteTransactionHoldFrames"

def valueText : Feature → Bytes
  | enableFakePing v | enableScoreboardFlair v | enableCrosshair v => flagText v
  | fakePingMin v | fakePingMax v | defaultScoreboardFlair v | pingJitterPercent v
  | voteTransactionHoldFrames v => numeral v
  | scoreboardFlairProbability literal => literal

/-- Numbers fit an `int`, and the probability is a decimal literal. -/
def WellFormed : Feature → Prop
  | enableFakePing _ | enableScoreboardFlair _ | enableCrosshair _ => True
  | fakePingMin v | fakePingMax v | defaultScoreboardFlair v | pingJitterPercent v
  | voteTransactionHoldFrames v => v < 2 ^ 31
  | scoreboardFlairProbability literal =>
    literal ≠ [] ∧ ∀ c ∈ literal, isDecimalByte c = true

def set (f : PluginFeatures) : Feature → PluginFeatures
  | enableFakePing v => { f with enableFakePing := v }
  | fakePingMin v => { f with fakePingMin := v }
  | fakePingMax v => { f with fakePingMax := v }
  | enableScoreboardFlair v => { f with enableScoreboardFlair := v }
  | scoreboardFlairProbability literal =>
    { f with scoreboardFlairProbability := (readDouble literal).1 }
  | enableCrosshair v => { f with enableCrosshair := v }
  | defaultScoreboardFlair v => { f with defaultScoreboardFlair := UInt32.ofNat v }
  | pingJitterPercent v => { f with pingJitterPercent := v }
  | voteTransactionHoldFrames v => { f with voteTransactionHoldFrames := v }

end Feature

theorem Feature.key_ok {x : Feature} : x.key ≠ [] ∧ quote ∉ x.key := by
  have hkeys : ∀ k ∈ featureKeys, k ≠ [] ∧ quote ∉ k := by decide +kernel
  apply hkeys
  cases x <;> simp [featureKeys, Feature.key]

structure FeatureText where
  lead : Bytes
  gap : Bytes
  before : Bytes
  trail : Bytes
  feature : Feature
  lead_blank : Blank lead
  gap_blank : Blank gap
  before_blank : Blank before
  trail_blank : Blank trail
  wellFormed : feature.WellFormed

def FeatureText.member (t : FeatureText) : MemberText where
  lead := t.lead
  key := t.feature.key
  gap := t.gap
  value := t.before ++ t.feature.valueText ++ t.trail
  lead_blank := t.lead_blank
  key_plain := Feature.key_ok.2
  gap_blank := t.gap_blank

theorem readFlag_flagText {before trail : Bytes} {v : Bool} (hbefore : Blank before) :
    (readFlag (before ++ flagText v ++ trail)).1 = v := by
  rw [readFlag]
  dsimp only
  rw [List.append_assoc, skipWhitespace_append hbefore]
  cases v <;> rfl

/-- Blanks around a number change nothing, with nothing behind them either. -/
theorem readUInt64_numeral {before trail : Bytes} (hbefore : Blank before) (htrail : Blank trail) :
    (readUInt64 (before ++ numeral n ++ trail)).1 = UInt64.ofNat n := by
  have hread := readUInt64_digits (X := []) hbefore (@numeral_digits n).1 (@numeral_digits n).2 htrail
    (Or.inl rfl)
  rw [readsAhead_readUInt64.append comma [] (Or.inl rfl)] at hread
  rw [← decimal_numeral]
  exact congrArg Prod.fst hread

theorem isSpace_of_isDecimalByte (h : isDecimalByte c = true) : isSpace c = false := by
  simp only [isDecimalByte, decide_eq_true_eq] at h
  rcases h with h | rfl | rfl | rfl | rfl | rfl
  · exact isSpace_of_isDigit h
  all_goals decide

theorem readDouble_literal {before literal trail : Bytes} (hbefore : Blank before) (hne : literal ≠ [])
    (hliteral : ∀ c ∈ literal, isDecimalByte c = true) (htrail : Blank trail) :
    (readDouble (before ++ literal ++ trail)).1 = (readDouble literal).1 := by
  obtain ⟨d, ds, rfl⟩ := List.exists_cons_of_ne_nil hne
  have hd := isSpace_of_isDecimalByte (hliteral d List.mem_cons_self)
  have hskip : readDouble (before ++ d :: ds ++ trail) = readDouble (d :: ds ++ trail) := by
    rw [readDouble, readDouble, List.append_assoc, skipWhitespace_append hbefore]
  rw [hskip]
  cases trail with
  | nil => rw [List.append_nil]
  | cons c trail =>
    have hc := htrail c List.mem_cons_self
    have hdot : c ≠ 46 := by
      rintro rfl
      exact absurd hc (by decide)
    have hkept : skipWhitespace (d :: ds ++ c :: trail) = skipWhitespace (d :: ds) ++ c :: trail := by
      rw [skipWhitespace_cons hd, List.cons_append, skipWhitespace_cons hd]
    rw [readDouble_append (isDigit_of_isSpace hc) hdot hkept]

theorem readInt_value {before trail : Bytes} (hbefore : Blank before) (htrail : Blank trail)
    (hn : n < 2 ^ 31) : (readInt (before ++ numeral n ++ trail)).1 = n := by
  rw [readInt]
  dsimp only
  rw [readUInt64_numeral hbefore htrail, ← decimal_numeral]
  exact readInt_numeral hn

theorem readUInt32_value {before trail : Bytes} (hbefore : Blank before) (htrail : Blank trail) :
    (readUInt32 (before ++ numeral n ++ trail)).1 = UInt32.ofNat n := by
  rw [readUInt32]
  dsimp only
  rw [readUInt64_numeral hbefore htrail, UInt64.toUInt32_ofNat']

/-- Every feature is set to the value it is written with. -/
theorem onFeature_value (t : FeatureText) :
    (onFeature t.member.key f t.member.value).1 = t.feature.set f := by
  have hwell := t.wellFormed
  have hbefore := t.before_blank
  have htrail := t.trail_blank
  simp only [FeatureText.member]
  cases hx : t.feature <;> rw [hx] at hwell
  case enableFakePing v =>
    exact congrArg (fun y => { f with enableFakePing := y }) (readFlag_flagText hbefore)
  case fakePingMin v =>
    exact congrArg (fun y => { f with fakePingMin := y }) (readInt_value hbefore htrail hwell)
  case fakePingMax v =>
    exact congrArg (fun y => { f with fakePingMax := y }) (readInt_value hbefore htrail hwell)
  case enableScoreboardFlair v =>
    exact congrArg (fun y => { f with enableScoreboardFlair := y }) (readFlag_flagText hbefore)
  case scoreboardFlairProbability literal =>
    exact congrArg (fun y => { f with scoreboardFlairProbability := y })
      (readDouble_literal hbefore hwell.1 hwell.2 htrail)
  case enableCrosshair v =>
    exact congrArg (fun y => { f with enableCrosshair := y }) (readFlag_flagText hbefore)
  case defaultScoreboardFlair v =>
    exact congrArg (fun y => { f with defaultScoreboardFlair := y }) (readUInt32_value hbefore htrail)
  case pingJitterPercent v =>
    exact congrArg (fun y => { f with pingJitterPercent := y }) (readInt_value hbefore htrail hwell)
  case voteTransactionHoldFrames v =>
    exact congrArg (fun y => { f with voteTransactionHoldFrames := y })
      (readInt_value hbefore htrail hwell)

theorem flagText_plain {v : Bool} : PlainText (flagText v) := by
  unfold PlainText
  cases v <;> decide +kernel

theorem Feature.valueText_plain {x : Feature} (h : x.WellFormed) : PlainText x.valueText := by
  have hdecimal : ∀ c, isDecimalByte c = true → insideScalar c = true ∧ c ≠ openBrace ∧
      c ≠ openBracket := by
    intro c hc
    have hbytes : ∀ b ∈ [comma, closeBrace, openBrace, openBracket], isDecimalByte b = false := by
      decide +kernel
    have hne : ∀ b ∈ [comma, closeBrace, openBrace, openBracket], c ≠ b := by
      rintro b hb rfl
      exact absurd (hc.symm.trans (hbytes c hb)) (by simp)
    simpa [insideScalar, and_assoc] using hne
  have hnumeral : ∀ n, PlainText (numeral n) := by
    intro n c hc
    apply hdecimal
    simp [isDecimalByte, numeral_digits.2 c hc]
  cases x
  case enableFakePing | enableScoreboardFlair | enableCrosshair => exact flagText_plain
  case scoreboardFlairProbability literal => exact fun c hc => hdecimal c (h.2 c hc)
  all_goals exact hnumeral _

/-- A written feature is read for what it says. -/
theorem reads_featureText (t : FeatureText) (f : PluginFeatures) :
    Reads (blockMember onFeature) t.member f (t.feature.set f) := by
  rw [← onFeature_value t]
  refine reads_feature ⟨Feature.key_ok.1, Or.inl fun c hc => ?_⟩
  simp only [FeatureText.member, List.mem_append] at hc
  rcases hc with (hc | hc) | hc
  · exact t.before_blank.plainText c hc
  · exact Feature.valueText_plain t.wellFormed c hc
  · exact t.trail_blank.plainText c hc

/-- The features as the file's author means them: the ones that are given, with their values. -/
structure FeatureValues where
  enableFakePing : Option Bool := none
  fakePingMin : Option Nat := none
  fakePingMax : Option Nat := none
  enableScoreboardFlair : Option Bool := none
  scoreboardFlairProbability : Option Bytes := none
  enableCrosshair : Option Bool := none
  defaultScoreboardFlair : Option Nat := none
  pingJitterPercent : Option Nat := none
  voteTransactionHoldFrames : Option Nat := none

namespace FeatureValues

def features (v : FeatureValues) : List Feature :=
  (v.enableFakePing.map Feature.enableFakePing).toList ++
    ((v.fakePingMin.map Feature.fakePingMin).toList ++
    ((v.fakePingMax.map Feature.fakePingMax).toList ++
    ((v.enableScoreboardFlair.map Feature.enableScoreboardFlair).toList ++
    ((v.scoreboardFlairProbability.map Feature.scoreboardFlairProbability).toList ++
    ((v.enableCrosshair.map Feature.enableCrosshair).toList ++
    ((v.defaultScoreboardFlair.map Feature.defaultScoreboardFlair).toList ++
    ((v.pingJitterPercent.map Feature.pingJitterPercent).toList ++
    (v.voteTransactionHoldFrames.map Feature.voteTransactionHoldFrames).toList)))))))

/-- The given values over the previous ones. -/
def override (v : FeatureValues) (f : PluginFeatures) : PluginFeatures where
  enableFakePing := v.enableFakePing.getD f.enableFakePing
  fakePingMin := (v.fakePingMin.map Int.ofNat).getD f.fakePingMin
  fakePingMax := (v.fakePingMax.map Int.ofNat).getD f.fakePingMax
  enableScoreboardFlair := v.enableScoreboardFlair.getD f.enableScoreboardFlair
  scoreboardFlairProbability :=
    (v.scoreboardFlairProbability.map fun literal => (readDouble literal).1).getD
      f.scoreboardFlairProbability
  defaultScoreboardFlair := (v.defaultScoreboardFlair.map UInt32.ofNat).getD f.defaultScoreboardFlair
  enableCrosshair := v.enableCrosshair.getD f.enableCrosshair
  pingJitterPercent := (v.pingJitterPercent.map Int.ofNat).getD f.pingJitterPercent
  voteTransactionHoldFrames :=
    (v.voteTransactionHoldFrames.map Int.ofNat).getD f.voteTransactionHoldFrames

theorem foldl_features (v : FeatureValues) (f : PluginFeatures) :
    v.features.foldl Feature.set f = v.override f := by
  have henableFakePing : ∀ (o : Option Bool) f,
      ((o.map Feature.enableFakePing).toList).foldl Feature.set f =
        { f with enableFakePing := o.getD f.enableFakePing } := by
    intro o f
    cases o <;> rfl
  have hfakePingMin : ∀ (o : Option Nat) f, ((o.map Feature.fakePingMin).toList).foldl Feature.set f =
      { f with fakePingMin := (o.map Int.ofNat).getD f.fakePingMin } := by
    intro o f
    cases o <;> rfl
  have hfakePingMax : ∀ (o : Option Nat) f, ((o.map Feature.fakePingMax).toList).foldl Feature.set f =
      { f with fakePingMax := (o.map Int.ofNat).getD f.fakePingMax } := by
    intro o f
    cases o <;> rfl
  have henableScoreboardFlair : ∀ (o : Option Bool) f,
      ((o.map Feature.enableScoreboardFlair).toList).foldl Feature.set f =
        { f with enableScoreboardFlair := o.getD f.enableScoreboardFlair } := by
    intro o f
    cases o <;> rfl
  have hscoreboardFlairProbability : ∀ (o : Option Bytes) f,
      ((o.map Feature.scoreboardFlairProbability).toList).foldl Feature.set f =
        { f with scoreboardFlairProbability :=
            (o.map fun literal => (readDouble literal).1).getD f.scoreboardFlairProbability } := by
    intro o f
    cases o <;> rfl
  have henableCrosshair : ∀ (o : Option Bool) f,
      ((o.map Feature.enableCrosshair).toList).foldl Feature.set f =
        { f with enableCrosshair := o.getD f.enableCrosshair } := by
    intro o f
    cases o <;> rfl
  have hdefaultScoreboardFlair : ∀ (o : Option Nat) f,
      ((o.map Feature.defaultScoreboardFlair).toList).foldl Feature.set f =
        { f with defaultScoreboardFlair := (o.map UInt32.ofNat).getD f.defaultScoreboardFlair } := by
    intro o f
    cases o <;> rfl
  have hpingJitterPercent : ∀ (o : Option Nat) f,
      ((o.map Feature.pingJitterPercent).toList).foldl Feature.set f =
        { f with pingJitterPercent := (o.map Int.ofNat).getD f.pingJitterPercent } := by
    intro o f
    cases o <;> rfl
  have hvoteTransactionHoldFrames : ∀ (o : Option Nat) f,
      ((o.map Feature.voteTransactionHoldFrames).toList).foldl Feature.set f =
        { f with voteTransactionHoldFrames := (o.map Int.ofNat).getD f.voteTransactionHoldFrames } := by
    intro o f
    cases o <;> rfl
  simp only [features, List.foldl_append, henableFakePing, hfakePingMin, hfakePingMax,
    henableScoreboardFlair, hscoreboardFlairProbability, henableCrosshair, hdefaultScoreboardFlair,
    hpingJitterPercent, hvoteTransactionHoldFrames]
  rfl

/-- Two features of one file: either they are one feature, or they set different things. -/
theorem set_comm {v : FeatureValues} {x y : Feature} (hx : x ∈ v.features) (hy : y ∈ v.features)
    (f : PluginFeatures) : y.set (x.set f) = x.set (y.set f) := by
  simp only [features, List.mem_append, Option.mem_toList, Option.map_eq_some_iff] at hx hy
  rcases hx with ⟨a, ha, rfl⟩ | ⟨a, ha, rfl⟩ | ⟨a, ha, rfl⟩ | ⟨a, ha, rfl⟩ | ⟨a, ha, rfl⟩ |
      ⟨a, ha, rfl⟩ | ⟨a, ha, rfl⟩ | ⟨a, ha, rfl⟩ | ⟨a, ha, rfl⟩ <;>
    rcases hy with ⟨b, hb, rfl⟩ | ⟨b, hb, rfl⟩ | ⟨b, hb, rfl⟩ | ⟨b, hb, rfl⟩ | ⟨b, hb, rfl⟩ |
      ⟨b, hb, rfl⟩ | ⟨b, hb, rfl⟩ | ⟨b, hb, rfl⟩ | ⟨b, hb, rfl⟩ <;>
    first
    | rfl
    | rw [Option.some.inj (ha.symm.trans hb)]

end FeatureValues

/-- A `features` block, its members in any order. -/
structure FeaturesText where
  head : MemberText
  before : Bytes
  inner : Bytes
  trail : Bytes
  values : FeatureValues
  features : List FeatureText
  key_eq : head.key = ascii "features"
  before_blank : Blank before
  inner_blank : Blank inner
  trail_blank : Blank trail
  features_perm : (features.map FeatureText.feature).Perm values.features

def FeaturesText.member (t : FeaturesText) : MemberText :=
  t.head.withValue (objectText t.before t.inner (t.features.map FeatureText.member) t.trail)

/-- The `mapBlacklist` array. -/
structure BlacklistText where
  head : MemberText
  before : Bytes
  inner : Bytes
  trail : Bytes
  tokens : List TokenText
  key_eq : head.key = ascii "mapBlacklist"
  before_blank : Blank before
  inner_blank : Blank inner
  trail_blank : Blank trail

def BlacklistText.member (t : BlacklistText) : MemberText :=
  t.head.withValue
    (t.before ++ openBracket :: (tokensText t.inner t.tokens ++ closeBracket :: t.trail))

/-- The strings trimmed, without the ones that leave nothing. -/
def BlacklistText.strings (t : BlacklistText) : List Bytes :=
  (t.tokens.map fun t => trimAscii t.token).filter (· ≠ [])

inductive SettingText
  | features (t : FeaturesText)
  | mapBlacklist (t : BlacklistText)

def SettingText.member : SettingText → MemberText
  | features t => t.member
  | mapBlacklist t => t.member

def BotInfo.addSetting (info : BotInfo) : SettingText → BotInfo
  | .features t => { info with features := t.values.override info.features }
  | .mapBlacklist t => { info with mapBlacklist := info.mapBlacklist ++ t.strings }

theorem foldl_addToken {ts : List TokenText} {l : List Bytes} :
    ts.foldl addToken l = l ++ (ts.map fun t => trimAscii t.token).filter (· ≠ []) := by
  induction ts generalizing l with
  | nil => simp
  | cons t ts ih =>
    rw [List.foldl_cons, ih, addToken, List.map_cons, List.filter_cons]
    by_cases hempty : trimAscii t.token = []
    · simp [hempty]
    · simp [hempty]

theorem reads_settingText (t : SettingText) (info : BotInfo) :
    Reads onSetting t.member info (info.addSetting t) := by
  cases t with
  | features t =>
    refine reads_features t.key_eq t.before_blank t.trail_blank rfl fun X => ?_
    have hset : t.features.foldl (fun f t => t.feature.set f) info.features =
        t.values.override info.features := by
      rw [← FeatureValues.foldl_features, ← List.foldl_map]
      refine t.features_perm.foldl_eq' ?_ _
      intro x hx y hy f
      exact FeatureValues.set_comm (t.features_perm.mem_iff.mp hx) (t.features_perm.mem_iff.mp hy) f
    rw [readMembers_map (consumes_blockMember consumes_onFeature) t.inner_blank
      fun t _ => reads_featureText t, hset]
  | mapBlacklist t =>
    have hread := @reads_mapBlacklist _ t.member info _ _ t.tokens t.key_eq
      t.before_blank t.inner_blank t.trail_blank rfl
    rwa [foldl_addToken] at hread

/-- A whole settings file: each of the two members at most once, in either order, with any blanks. -/
structure WrittenSettings where
  lead : Bytes
  ws : Bytes
  tail : Bytes
  features : Option FeaturesText
  mapBlacklist : Option BlacklistText
  members : List SettingText
  lead_blank : Blank lead
  ws_blank : Blank ws
  members_perm : members.Perm
    ((features.map SettingText.features).toList ++ (mapBlacklist.map SettingText.mapBlacklist).toList)

namespace WrittenSettings

def file (w : WrittenSettings) : Bytes :=
  objectText w.lead w.ws (w.members.map SettingText.member) w.tail

/-- No block gives no values. -/
def values (w : WrittenSettings) : FeatureValues := w.features.elim {} FeaturesText.values

def strings (w : WrittenSettings) : List Bytes := w.mapBlacklist.elim [] BlacklistText.strings

theorem foldl_addSetting (w : WrittenSettings) (info : BotInfo) :
    w.members.foldl BotInfo.addSetting info =
      { info with
        features := w.values.override info.features
        mapBlacklist := info.mapBlacklist ++ w.strings } := by
  have hcomm : ∀ x ∈ w.members, ∀ y ∈ w.members, ∀ info : BotInfo,
      (info.addSetting x).addSetting y = (info.addSetting y).addSetting x := by
    intro x hx y hy info
    have hx' := w.members_perm.mem_iff.mp hx
    have hy' := w.members_perm.mem_iff.mp hy
    simp only [List.mem_append, Option.mem_toList, Option.map_eq_some_iff] at hx' hy'
    rcases hx' with ⟨a, ha, rfl⟩ | ⟨a, ha, rfl⟩ <;> rcases hy' with ⟨b, hb, rfl⟩ | ⟨b, hb, rfl⟩
    · rw [Option.some.inj (ha.symm.trans hb)]
    · rfl
    · rfl
    · rw [Option.some.inj (ha.symm.trans hb)]
  rw [w.members_perm.foldl_eq' hcomm info, List.foldl_append, values, strings]
  cases w.features <;> cases w.mapBlacklist <;> simp [BotInfo.addSetting] <;> rfl

end WrittenSettings

theorem clampHoldFrames_eq (f : PluginFeatures) : clampHoldFrames f =
    { f with voteTransactionHoldFrames := max 1 (min f.voteTransactionHoldFrames 32) } := by
  unfold clampHoldFrames
  by_cases hlow : f.voteTransactionHoldFrames < 1
  · have hclamp : max 1 (min f.voteTransactionHoldFrames 32) = 1 := by omega
    simp [hlow, hclamp]
  · by_cases hhigh : 32 < f.voteTransactionHoldFrames
    · have hclamp : max 1 (min f.voteTransactionHoldFrames 32) = 32 := by omega
      simp [hlow, hhigh, hclamp]
    · have hclamp : max 1 (min f.voteTransactionHoldFrames 32) = f.voteTransactionHoldFrames := by omega
      simp [hlow, hhigh, hclamp]

/-- Loading undoes writing: the given features have their values and the others keep theirs, the hold
is clamped, and the blacklist holds the trimmed strings that are not empty, in order. -/
theorem load_written (info : BotInfo) (w : WrittenSettings) :
    info.load (some w.file) =
      (true, { info with
        features := { w.values.override info.features with
          voteTransactionHoldFrames :=
            max 1 (min (w.values.override info.features).voteTransactionHoldFrames 32) }
        mapBlacklist := w.strings }) := by
  rw [WrittenSettings.file, load_text w.lead_blank, readMembers_map consumes_onSetting w.ws_blank
    fun t _ => reads_settingText t, w.foldl_addSetting, clampHoldFrames_eq]
  rfl

end Botid
