import Botid.BotInfoLoad
import Botid.Skippers

/-! Identity lists as they are written, field by field, and how `LoadBots` reads them. -/
namespace Botid

variable {s ws X : Bytes} {c : UInt8} {b : BotIdentity} {info : BotInfo}

/-- A field that `LoadBots` knows, with the digits or the string it is written with. -/
inductive Field
  | steamid (digits : Bytes)
  | name (s : Bytes)
  | ping (digits : Bytes)
  | crosshair (s : Bytes)
  | scoreboardFlair (digits : Bytes)

namespace Field

def key : Field → Bytes
  | steamid _ => ascii "steamid"
  | name _ => ascii "name"
  | ping _ => ascii "ping"
  | crosshair _ => ascii "crosshair"
  | scoreboardFlair _ => ascii "scoreboardFlair"

def valueText : Field → Bytes
  | steamid digits | ping digits | scoreboardFlair digits => digits
  | name s | crosshair s => quote :: (s ++ [quote])

/-- Numbers are digits, strings hold no quote. -/
def WellFormed : Field → Prop
  | steamid digits | ping digits | scoreboardFlair digits =>
    digits ≠ [] ∧ ∀ c ∈ digits, isDigit c = true
  | name s | crosshair s => quote ∉ s

def set (b : BotIdentity) : Field → BotIdentity
  | steamid digits => { b with steamId := decimal digits }
  | name s => { b with name := s }
  | ping digits => { b with ping := (decimal digits).toUInt32.toInt32.toInt }
  | crosshair s => { b with crosshair := s }
  | scoreboardFlair digits => { b with scoreboardFlair := (decimal digits).toUInt32 }

end Field

/-- The keys that `LoadBots` knows inside a record. -/
def recordKeys : List Bytes :=
  [ascii "steamid", ascii "name", ascii "ping", ascii "crosshair", ascii "scoreboardFlair"]

theorem Field.key_ok {f : Field} : f.key ≠ [] ∧ quote ∉ f.key := by
  have hkeys : ∀ k ∈ recordKeys, k ≠ [] ∧ quote ∉ k := by decide
  apply hkeys
  cases f <;> simp [recordKeys, Field.key]

structure FieldText where
  lead : Bytes
  gap : Bytes
  before : Bytes
  trail : Bytes
  field : Field
  lead_blank : Blank lead
  gap_blank : Blank gap
  before_blank : Blank before
  trail_blank : Blank trail
  wellFormed : field.WellFormed

def FieldText.member (t : FieldText) : MemberText where
  lead := t.lead
  key := t.field.key
  gap := t.gap
  value := t.before ++ t.field.valueText ++ t.trail
  lead_blank := t.lead_blank
  key_plain := Field.key_ok.2
  gap_blank := t.gap_blank

theorem isDigit_of_isSpace (h : isSpace c = true) : isDigit c = false := by
  simp only [isSpace, decide_eq_true_eq] at h
  rcases h with rfl | rfl | rfl | rfl <;> decide

theorem isSpace_of_isDigit (h : isDigit c = true) : isSpace c = false := by
  cases hs : isSpace c with
  | false => rfl
  | true => exact absurd (h.symm.trans (isDigit_of_isSpace hs)) (by simp)

/-- A number is read up to the blanks behind it. -/
theorem readUInt64_digits {before digits trail : Bytes} (hbefore : Blank before) (hne : digits ≠ [])
    (hdigits : ∀ c ∈ digits, isDigit c = true) (htrail : Blank trail)
    (hc : c = comma ∨ c = closeBrace) :
    readUInt64 (before ++ digits ++ trail ++ c :: X) = (decimal digits, trail ++ c :: X) := by
  have hskip : skipWhitespace (before ++ digits ++ trail ++ c :: X) =
      digits ++ (trail ++ c :: X) := by
    obtain ⟨d, ds, rfl⟩ := List.exists_cons_of_ne_nil hne
    rw [List.append_assoc, List.append_assoc, List.cons_append,
      skipWhitespace_blank hbefore (isSpace_of_isDigit (hdigits d List.mem_cons_self))]
  -- the first byte behind the digits is a blank or the separator
  obtain ⟨d, u, hu, hd⟩ : ∃ d u, trail ++ c :: X = d :: u ∧ isDigit d = false := by
    cases trail with
    | nil => exact ⟨c, X, rfl, isDigit_separator hc⟩
    | cons d trail => exact ⟨d, _, rfl, isDigit_of_isSpace (htrail d List.mem_cons_self)⟩
  rw [readUInt64, hskip, hu, dropWhile_of_forall hdigits hd,
    takeWhile_append_cons hd, List.takeWhile_eq_self_iff.mpr hdigits]

theorem readString_value {before s trail : Bytes} (hbefore : Blank before) (hs : quote ∉ s) :
    readString (before ++ quote :: (s ++ [quote]) ++ trail ++ c :: X) = (s, trail ++ c :: X) := by
  have := readString_append (X := trail ++ c :: X) hbefore hs
  simpa using this

/-- A known field is read as it is written. -/
theorem reads_field {t : FieldText} : Reads onRecordField t.member b (t.field.set b) := by
  refine ⟨Field.key_ok.1, fun c X hc => ?_⟩
  refine ⟨t.trail ++ c :: X, ?_, skipWhitespace_blank t.trail_blank (isSpace_separator hc)⟩
  have hwell := t.wellFormed
  simp only [FieldText.member]
  cases hf : t.field with
  | steamid digits =>
    rw [hf] at hwell
    simp only [Field.key, Field.valueText, onRecordField, if_true, Field.set,
      readUInt64_digits t.before_blank hwell.1 hwell.2 t.trail_blank hc]
  | name s =>
    rw [hf] at hwell
    simp only [Field.key, Field.valueText, Field.set, onRecordField,
      if_neg (show ascii "name" ≠ ascii "steamid" by decide), if_true,
      readString_value t.before_blank hwell]
  | ping digits =>
    rw [hf] at hwell
    simp only [Field.key, Field.valueText, Field.set, onRecordField, readInt,
      if_neg (show ascii "ping" ≠ ascii "steamid" by decide),
      if_neg (show ascii "ping" ≠ ascii "name" by decide), if_true,
      readUInt64_digits t.before_blank hwell.1 hwell.2 t.trail_blank hc]
  | crosshair s =>
    rw [hf] at hwell
    simp only [Field.key, Field.valueText, Field.set, onRecordField,
      if_neg (show ascii "crosshair" ≠ ascii "steamid" by decide),
      if_neg (show ascii "crosshair" ≠ ascii "name" by decide),
      if_neg (show ascii "crosshair" ≠ ascii "ping" by decide), if_true,
      readString_value t.before_blank hwell]
  | scoreboardFlair digits =>
    rw [hf] at hwell
    simp only [Field.key, Field.valueText, Field.set, onRecordField, readUInt32,
      if_neg (show ascii "scoreboardFlair" ≠ ascii "steamid" by decide),
      if_neg (show ascii "scoreboardFlair" ≠ ascii "name" by decide),
      if_neg (show ascii "scoreboardFlair" ≠ ascii "ping" by decide),
      if_neg (show ascii "scoreboardFlair" ≠ ascii "crosshair" by decide), if_true,
      readUInt64_digits t.before_blank hwell.1 hwell.2 t.trail_blank hc]

/-- An unknown field is not read at all. -/
theorem onRecordField_of_unknown {key : Bytes} (h : key ∉ recordKeys) :
    onRecordField key b s = (b, s) := by
  simp only [recordKeys, List.mem_cons, List.not_mem_nil, or_false, not_or] at h
  obtain ⟨h1, h2, h3, h4, h5⟩ := h
  rw [onRecordField, if_neg h1, if_neg h2, if_neg h3, if_neg h4, if_neg h5]

theorem consumes_onRecordField : Consumes onRecordField := by
  intro k b s
  have hnumber : (readUInt64 s).2.length ≤ s.length :=
    length_dropWhile_le.trans length_skipWhitespace_le
  unfold onRecordField readInt readUInt32
  dsimp only
  split
  · exact hnumber
  split
  · exact length_readString_le
  split
  · exact hnumber
  split
  · exact length_readString_le
  split
  · exact hnumber
  · exact le_refl _

/-- One record: the bot's key, which may be empty, and the fields between the braces. -/
structure RecordText where
  /-- The key with its blanks; the value is spelled out below. -/
  head : MemberText
  before : Bytes
  inner : Bytes
  trail : Bytes
  fields : List FieldText
  before_blank : Blank before
  inner_blank : Blank inner
  trail_blank : Blank trail

/-- The record has a key. -/
def RecordText.isNamed (r : RecordText) : Bool := r.head.key ≠ []

def RecordText.member (r : RecordText) : MemberText :=
  r.head.withValue (objectText r.before r.inner (r.fields.map FieldText.member) r.trail)

/-- The fields of a record over the defaults of the bot at this place of the list. -/
def identityOf (key : Bytes) (index : Nat) (fields : List FieldText) : BotIdentity :=
  fields.foldl (fun b t => t.field.set b) { name := key, steamId := kSteamIdBase + UInt64.ofNat index }

def BotInfo.addRecord (info : BotInfo) (r : RecordText) : BotInfo :=
  info.keep (identityOf r.head.key info.bots.length r.fields)

theorem Blank.plainText (h : Blank s) : PlainText s := by
  intro c hc
  have hspace := h c hc
  simp only [isSpace, decide_eq_true_eq] at hspace
  rcases hspace with rfl | rfl | rfl | rfl <;> decide

theorem readRecord_text (hbefore : Blank ws) :
    readRecord (b, ws ++ openBrace :: X) = readMembers onRecordField (b, X) := by
  unfold readRecord
  dsimp only
  rw [matchChar_self (skipWhitespace_blank hbefore (by decide)), if_pos rfl]

theorem onBot_text {before inner trail : Bytes} {key : Bytes} {ms : List MemberText}
    (hbefore : Blank before) : onBot key info (objectText before inner ms trail ++ X) =
      let read := readMembers onRecordField
        (info.newIdentity key, membersText inner ms ++ closeBrace :: (trail ++ X))
      (info.keep read.1, read.2) := by
  rw [onBot, objectText, List.append_assoc, List.cons_append, List.append_assoc, List.cons_append,
    readRecord_text hbefore]

theorem reads_record {r : RecordText} (hr : r.isNamed = true) (info : BotInfo) :
    Reads (blockMember onBot) r.member info (info.addRecord r) := by
  refine ⟨of_decide_eq_true hr, fun c X hc => ?_⟩
  refine ⟨c :: X, ?_, skipWhitespace_cons (isSpace_separator hc)⟩
  simp only [RecordText.member, MemberText.withValue, blockMember]
  rw [onBot_text r.before_blank, readMembers_map consumes_onRecordField r.inner_blank
    fun t _ b => reads_field]
  dsimp only
  rw [r.trail_blank.plainText.scalarText.skipBlockValue hc]
  rfl

theorem consumes_onBot : Consumes onBot := by
  intro k info s
  have hbrace := length_matchChar_le (c := openBrace) (s := s)
  unfold onBot readRecord
  dsimp only
  split
  · exact (length_readMembers_le consumes_onRecordField).trans hbrace
  · exact hbrace

theorem consumes_onBotsFileKey : Consumes onBotsFileKey := by
  intro k info s
  rw [onBotsFileKey]
  split
  · exact length_readBlock_le consumes_onBot
  · exact length_skipJsonValue_le

/-- A `bots` block. -/
structure BlockText where
  head : MemberText
  before : Bytes
  inner : Bytes
  trail : Bytes
  records : List RecordText
  key_eq : head.key = ascii "bots"
  before_blank : Blank before
  inner_blank : Blank inner
  trail_blank : Blank trail

def BlockText.member (t : BlockText) : MemberText :=
  t.head.withValue (objectText t.before t.inner (t.records.map RecordText.member) t.trail)

/-- Any other member of the top level. -/
structure OtherText where
  head : MemberText
  before : Bytes
  value : Bytes
  trail : Bytes
  not_bots : head.key ≠ ascii "bots"
  before_blank : Blank before
  json : JsonValue value
  trail_blank : Blank trail

def OtherText.member (t : OtherText) : MemberText := t.head.withValue (t.before ++ t.value ++ t.trail)

inductive TopText
  | bots (t : BlockText)
  | other (t : OtherText)

def TopText.member : TopText → MemberText
  | bots t => t.member
  | other t => t.member

def TopText.records : TopText → List RecordText
  | bots t => t.records
  | other _ => []

/-- Every key at the top level and inside a block is one. -/
def TopText.isNamed : TopText → Bool
  | bots t => t.records.all RecordText.isNamed
  | other t => t.head.key ≠ []

def BotInfo.addTop (info : BotInfo) (t : TopText) : BotInfo := t.records.foldl addRecord info

theorem key_bots : ascii "bots" ≠ [] ∧ quote ∉ ascii "bots" := by decide

theorem reads_top {t : TopText} (ht : t.isNamed = true) (info : BotInfo) :
    Reads onBotsFileKey t.member info (info.addTop t) := by
  have hkey : t.member.key ≠ [] := by
    cases t with
    | bots t =>
      rw [show (TopText.bots t).member.key = ascii "bots" from t.key_eq]
      exact key_bots.1
    | other t => exact of_decide_eq_true ht
  refine ⟨hkey, fun c X hc => ?_⟩
  cases t with
  | bots t =>
    have hrecords : ∀ r ∈ t.records, r.isNamed = true := List.all_eq_true.mp ht
    refine ⟨t.trail ++ c :: X, ?_, skipWhitespace_blank t.trail_blank (isSpace_separator hc)⟩
    simp only [TopText.member, BlockText.member, MemberText.withValue]
    rw [onBotsFileKey, if_pos t.key_eq, objectText, List.append_assoc, List.cons_append,
      List.append_assoc, List.cons_append, readBlock_text t.before_blank,
      readMembers_map (consumes_blockMember consumes_onBot) t.inner_blank
        fun r hr => reads_record (hrecords r hr)]
    rfl
  | other t =>
    refine ⟨_, ?_, skipJsonValue_append t.before_blank t.trail_blank t.json hc⟩
    simp only [TopText.member, OtherText.member, MemberText.withValue]
    rw [onBotsFileKey, if_neg t.not_bots]
    rfl

theorem loadBots_text {lead tail : Bytes} {tops : List MemberText} (hlead : Blank lead) :
    info.loadBots (some (objectText lead ws tops tail)) =
      (true, (readMembers onBotsFileKey
        ({ info with bots := [], droppedOnLoad := 0, truncatedOnLoad := 0 },
          membersText ws tops ++ closeBrace :: tail)).1) := by
  unfold BotInfo.loadBots objectText
  dsimp only
  rw [matchChar_self (skipWhitespace_blank hlead (by decide)), if_pos rfl]

/-- A list as it is written, with all its keys, loads as its records, in order. -/
theorem loadBots_tops {lead tail : Bytes} {tops : List TopText} (hlead : Blank lead) (hws : Blank ws)
    (htops : ∀ t ∈ tops, t.isNamed = true) :
    info.loadBots (some (objectText lead ws (tops.map TopText.member) tail)) =
      (true, tops.foldl BotInfo.addTop
        { info with bots := [], droppedOnLoad := 0, truncatedOnLoad := 0 }) := by
  rw [loadBots_text hlead, readMembers_map consumes_onBotsFileKey hws fun t ht => reads_top (htops t ht)]

/-- The name cut to its cell, as `LoadBots` keeps it. -/
def BotIdentity.cut (b : BotIdentity) : BotIdentity :=
  if kMaxPersonaNameBytes < b.name.length then
    { b with name := truncateUtf8 b.name kMaxPersonaNameBytes }
  else b

theorem utf8Cut_le (n : Nat) : utf8Cut s n ≤ n := by
  induction n with
  | zero => exact le_refl _
  | succ n ih =>
    rw [utf8Cut]
    split
    · exact ih.trans (Nat.le_succ n)
    · exact le_refl _

theorem length_truncateUtf8_le {n : Nat} : (truncateUtf8 s n).length ≤ n := by
  rw [truncateUtf8]
  split
  · assumption
  · rw [List.length_take]
    exact (Nat.min_le_left _ _).trans (utf8Cut_le n)

theorem BotIdentity.cut_spec : b.cut.slot = b.slot ∧ b.cut.applied = b.applied ∧
    b.cut.name.length ≤ kMaxPersonaNameBytes := by
  rw [BotIdentity.cut]
  split
  · exact ⟨rfl, rfl, length_truncateUtf8_le⟩
  · exact ⟨rfl, rfl, by omega⟩

/-- A record goes behind the others, or nowhere. -/
theorem bots_keep : (info.keep b).bots =
    if info.bots.length < kMaxBotIdentities then info.bots ++ [b.cut] else info.bots := by
  by_cases hlong : kMaxPersonaNameBytes < b.name.length <;>
    by_cases hroom : info.bots.length < kMaxBotIdentities <;>
    simp [BotInfo.keep, BotIdentity.cut, hlong, hroom]

theorem features_keep : (info.keep b).features = info.features := by
  by_cases hlong : kMaxPersonaNameBytes < b.name.length <;>
    by_cases hroom : info.bots.length < kMaxBotIdentities <;>
    simp [BotInfo.keep, hlong, hroom]

theorem bots_foldl_addRecord {info' : BotInfo} {rs : List RecordText} (h : info.bots = info'.bots) :
    (rs.foldl BotInfo.addRecord info).bots = (rs.foldl BotInfo.addRecord info').bots := by
  induction rs generalizing info info' with
  | nil => exact h
  | cons r rs ih =>
    rw [List.foldl_cons, List.foldl_cons]
    apply ih
    rw [BotInfo.addRecord, BotInfo.addRecord, bots_keep, bots_keep, h]

theorem foldl_addTop {tops : List TopText} :
    tops.foldl BotInfo.addTop info = (tops.flatMap TopText.records).foldl BotInfo.addRecord info := by
  induction tops generalizing info with
  | nil => rfl
  | cons t tops ih => rw [List.foldl_cons, ih, List.flatMap_cons, List.foldl_append, BotInfo.addTop]

theorem length_bots_foldl_addRecord {rs : List RecordText} (h : info.bots.length ≤ kMaxBotIdentities) :
    (rs.foldl BotInfo.addRecord info).bots.length =
      min (info.bots.length + rs.length) kMaxBotIdentities := by
  induction rs generalizing info with
  | nil =>
    simp only [List.foldl_nil, List.length_nil]
    omega
  | cons r rs ih =>
    have hkeep : (info.addRecord r).bots.length = min (info.bots.length + 1) kMaxBotIdentities := by
      rw [BotInfo.addRecord, bots_keep]
      split
      · rw [List.length_append, List.length_singleton]
        omega
      · omega
    rw [List.foldl_cons, ih (by omega), hkeep, List.length_cons]
    omega

/-- A list that has grown from `B`, and not beyond its bound. -/
structure GrownFrom (B : List BotIdentity) (info : BotInfo) : Prop where
  grown : B <+: info.bots
  count_le : info.bots.length ≤ kMaxBotIdentities

variable {B : List BotIdentity}

theorem GrownFrom.keep (h : GrownFrom B info) : GrownFrom B (info.keep b) := by
  obtain ⟨grown, count_le⟩ := h
  constructor
  · rw [bots_keep]
    split
    · exact grown.trans (List.prefix_append _ _)
    · exact grown
  · rw [bots_keep]
    split
    · rw [List.length_append, List.length_singleton]
      omega
    · exact count_le

theorem GrownFrom.onBot (k s : Bytes) (h : GrownFrom B info) :
    GrownFrom B (blockMember onBot k info s).1 := h.keep

/-- What each bot of a file preserves, a key of the file does. -/
theorem onBotsFileKey_invariant {I : BotInfo → Prop}
    (hbot : ∀ k info s, I info → I (blockMember onBot k info s).1) (k s : Bytes) (h : I info) :
    I (onBotsFileKey k info s).1 := by
  rw [onBotsFileKey]
  split
  · exact readBlock_invariant hbot h
  · exact h

theorem GrownFrom.onBotsFileKey (k s : Bytes) (h : GrownFrom B info) :
    GrownFrom B (onBotsFileKey k info s).1 :=
  onBotsFileKey_invariant (fun k _ s hi => hi.onBot k s) k s h

/-- Whatever else the file of a full list holds, nothing of it is loaded. -/
theorem GrownFrom.bots_of_full (h : GrownFrom B info) (hB : kMaxBotIdentities ≤ B.length) :
    info.bots = B :=
  (h.grown.eq_of_length_le (h.count_le.trans hB)).symm

/-- What the bots of a loaded pool have in common. -/
structure FreshBots (info : BotInfo) : Prop where
  count_le : info.bots.length ≤ kMaxBotIdentities
  unused : ∀ b ∈ info.bots, b.slot = -1 ∧ b.applied = false
  name_le : ∀ b ∈ info.bots, b.name.length ≤ kMaxPersonaNameBytes

/-- No known field of a record assigns the identity to a slot. -/
theorem unused_onRecordField (k s : Bytes) (h : b.slot = -1 ∧ b.applied = false) :
    (onRecordField k b s).1.slot = -1 ∧ (onRecordField k b s).1.applied = false := by
  unfold onRecordField
  dsimp only
  split_ifs <;> exact h

theorem FreshBots.onBot (k s : Bytes) (h : FreshBots info) :
    FreshBots (blockMember onBot k info s).1 := by
  have hread : (readRecord (info.newIdentity k, s)).1.slot = -1 ∧
      (readRecord (info.newIdentity k, s)).1.applied = false := by
    unfold readRecord
    dsimp only
    split
    · exact readMembers_invariant (I := fun b : BotIdentity => b.slot = -1 ∧ b.applied = false)
        (fun k _ s hb => unused_onRecordField k s hb) ⟨rfl, rfl⟩
    · exact ⟨rfl, rfl⟩
  have hgrown : GrownFrom [] (blockMember Botid.onBot k info s).1 :=
    GrownFrom.onBot k s ⟨List.nil_prefix, h.count_le⟩
  have hcut := BotIdentity.cut_spec (b := (readRecord (info.newIdentity k, s)).1)
  have hmem : ∀ b ∈ (blockMember Botid.onBot k info s).1.bots, b ∈ info.bots ∨
      b = (readRecord (info.newIdentity k, s)).1.cut := by
    intro b hb
    rw [blockMember, Botid.onBot] at hb
    dsimp only at hb
    rw [bots_keep] at hb
    split at hb
    · simpa using hb
    · exact Or.inl hb
  refine ⟨hgrown.count_le, fun b hb => ?_, fun b hb => ?_⟩
  · obtain hb | rfl := hmem b hb
    · exact h.unused b hb
    · exact ⟨hcut.1.trans hread.1, hcut.2.1.trans hread.2⟩
  · obtain hb | rfl := hmem b hb
    · exact h.name_le b hb
    · exact hcut.2.2

theorem FreshBots.onBotsFileKey (k s : Bytes) (h : FreshBots info) :
    FreshBots (onBotsFileKey k info s).1 :=
  onBotsFileKey_invariant (fun k _ s hi => hi.onBot k s) k s h

/-- The identity list leaves the settings as `config.json` left them. -/
theorem features_loadBots {file : Option Bytes} : (info.loadBots file).2.features = info.features := by
  have hbot : ∀ k (i : BotInfo) s, i.features = info.features →
      (blockMember onBot k i s).1.features = info.features := by
    intro k i s hi
    rw [← hi, blockMember, onBot]
    exact features_keep
  unfold BotInfo.loadBots
  split
  · rfl
  · dsimp only
    split
    · exact readMembers_invariant (I := fun i : BotInfo => i.features = info.features)
        (fun k _ s hi => onBotsFileKey_invariant hbot k s hi) rfl
    · rfl

/-- Any file at all leaves a pool that the plugin can start from. -/
theorem freshBots_loadBots {file : Option Bytes} (h : FreshBots info) :
    FreshBots (info.loadBots file).2 := by
  have hempty : FreshBots { info with bots := [], droppedOnLoad := 0, truncatedOnLoad := 0 } :=
    ⟨Nat.zero_le _, by simp, by simp⟩
  unfold BotInfo.loadBots
  split
  · exact h
  · dsimp only
    split
    · exact readMembers_invariant (fun k _ s hi => hi.onBotsFileKey k s) hempty
    · exact h

end Botid
