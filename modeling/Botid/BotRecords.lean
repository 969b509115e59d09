import Botid.BotList
import Mathlib.Algebra.Group.Nat.Defs

/-! Identity lists written from records, and the pool they load as. -/
namespace Botid

variable {info : BotInfo} {n : Nat}

/-- A number as JSON writes it. -/
def numeral (n : Nat) : Bytes :=
  if n < 10 then [48 + UInt8.ofNat n] else numeral (n / 10) ++ [48 + UInt8.ofNat (n % 10)]
termination_by n
decreasing_by omega

theorem digit_spec (hn : n < 10) : isDigit (48 + UInt8.ofNat n) = true ∧
    (48 + UInt8.ofNat n - 48).toUInt64 = UInt64.ofNat n := by
  have hdigits : ∀ k < 10, isDigit (48 + UInt8.ofNat k) = true ∧
      (48 + UInt8.ofNat k - 48).toUInt64 = UInt64.ofNat k := by decide
  exact hdigits n hn

theorem numeral_digits : numeral n ≠ [] ∧ ∀ c ∈ numeral n, isDigit c = true := by
  induction n using numeral.induct with
  | case1 n hn =>
    rw [numeral, if_pos hn]
    exact ⟨by simp, by simpa using (digit_spec hn).1⟩
  | case2 n hn ih =>
    rw [numeral, if_neg hn]
    refine ⟨by simp, fun c hc => ?_⟩
    rcases List.mem_append.mp hc with hc | hc
    · exact ih.2 c hc
    · rw [List.mem_singleton.mp hc]
      exact (digit_spec (Nat.mod_lt n (by decide))).1

/-- `ReadUInt64` adds the digits up to the number they were written for, modulo 2^64. -/
theorem decimal_numeral : decimal (numeral n) = UInt64.ofNat n := by
  induction n using numeral.induct with
  | case1 n hn =>
    rw [numeral, if_pos hn, decimal, List.foldl_cons, List.foldl_nil, (digit_spec hn).2]
    simp
  | case2 n hn ih =>
    rw [decimal] at ih
    rw [numeral, if_neg hn, decimal, List.foldl_append, ih, List.foldl_cons, List.foldl_nil,
      (digit_spec (Nat.mod_lt n (by decide))).2]
    have hsplit : UInt64.ofNat (n / 10 * 10 + n % 10) = UInt64.ofNat n := by
      rw [Nat.div_add_mod']
    rw [← hsplit, UInt64.ofNat_add, UInt64.ofNat_mul]
    rfl

/-- A bot as the list's author means it: its key, and the fields that are given. -/
structure BotRecord where
  key : Bytes
  steamid : Option UInt64
  name : Option Bytes
  ping : Option Nat
  crosshair : Option Bytes
  scoreboardFlair : Option UInt32
  name_plain : ∀ s ∈ name, quote ∉ s
  ping_lt : ∀ p ∈ ping, p < 2 ^ 31
  crosshair_plain : ∀ s ∈ crosshair, quote ∉ s

namespace BotRecord

/-- The fields that are given, with the values as they are written. -/
def fields (r : BotRecord) : List Field :=
  (r.steamid.map fun v => Field.steamid (numeral v.toNat)).toList ++
    ((r.name.map Field.name).toList ++
    ((r.ping.map fun v => Field.ping (numeral v)).toList ++
    ((r.crosshair.map Field.crosshair).toList ++
    (r.scoreboardFlair.map fun v => Field.scoreboardFlair (numeral v.toNat)).toList)))

/-- The identity it stands for at this place of the list. -/
def identity (r : BotRecord) (index : Nat) : BotIdentity where
  slot := -1
  steamId := r.steamid.getD (kSteamIdBase + UInt64.ofNat index)
  name := truncateUtf8 (r.name.getD r.key) kMaxPersonaNameBytes
  ping := r.ping.getD 0
  crosshair := r.crosshair.getD []
  scoreboardFlair := r.scoreboardFlair.getD 0
  applied := false

end BotRecord

/-- A record as it is written under a key: the fields in any order, with any blanks. -/
structure WrittenRecord where
  record : BotRecord
  text : RecordText
  key_ne : text.isNamed = true
  key_eq : text.head.key = record.key
  fields_perm : (text.fields.map FieldText.field).Perm record.fields

theorem readInt_numeral {p : Nat} (hp : p < 2 ^ 31) :
    (decimal (numeral p)).toUInt32.toInt32.toInt = p := by
  rw [decimal_numeral, UInt64.toUInt32_ofNat']
  exact Int32.toInt_ofNat_of_lt hp

theorem readUInt32_numeral {v : UInt32} : (decimal (numeral v.toNat)).toUInt32 = v := by
  rw [decimal_numeral, UInt64.toUInt32_ofNat']
  simp

/-- Two fields of one record: either they are one field, or they set different things. -/
theorem set_comm {r : BotRecord} {f g : Field} (hf : f ∈ r.fields) (hg : g ∈ r.fields)
    (b : BotIdentity) : g.set (f.set b) = f.set (g.set b) := by
  simp only [BotRecord.fields, List.mem_append, Option.mem_toList, Option.map_eq_some_iff] at hf hg
  rcases hf with ⟨v, hv, rfl⟩ | ⟨v, hv, rfl⟩ | ⟨v, hv, rfl⟩ | ⟨v, hv, rfl⟩ | ⟨v, hv, rfl⟩ <;>
    rcases hg with ⟨u, hu, rfl⟩ | ⟨u, hu, rfl⟩ | ⟨u, hu, rfl⟩ | ⟨u, hu, rfl⟩ | ⟨u, hu, rfl⟩ <;>
    first
    | rfl
    | rw [Option.some.inj (hv.symm.trans hu)]

theorem foldl_set_fields (r : BotRecord) (b : BotIdentity) :
    r.fields.foldl Field.set b =
      { b with
        steamId := r.steamid.getD b.steamId
        name := r.name.getD b.name
        ping := (r.ping.map Int.ofNat).getD b.ping
        crosshair := r.crosshair.getD b.crosshair
        scoreboardFlair := r.scoreboardFlair.getD b.scoreboardFlair } := by
  have hsteamid : ∀ b, ((r.steamid.map fun v => Field.steamid (numeral v.toNat)).toList).foldl
      Field.set b = { b with steamId := r.steamid.getD b.steamId } := by
    intro b
    cases r.steamid with
    | none => rfl
    | some v => simp [Field.set, decimal_numeral]
  have hname : ∀ b, ((r.name.map Field.name).toList).foldl Field.set b =
      { b with name := r.name.getD b.name } := by
    intro b
    cases r.name <;> rfl
  have hping : ∀ b, ((r.ping.map fun v => Field.ping (numeral v)).toList).foldl Field.set b =
      { b with ping := (r.ping.map Int.ofNat).getD b.ping } := by
    intro b
    have hlt := r.ping_lt
    cases hp : r.ping with
    | none => rfl
    | some v => simp [Field.set, readInt_numeral (hlt v hp)]
  have hcrosshair : ∀ b, ((r.crosshair.map Field.crosshair).toList).foldl Field.set b =
      { b with crosshair := r.crosshair.getD b.crosshair } := by
    intro b
    cases r.crosshair <;> rfl
  have hflair : ∀ b, ((r.scoreboardFlair.map fun v =>
      Field.scoreboardFlair (numeral v.toNat)).toList).foldl Field.set b =
      { b with scoreboardFlair := r.scoreboardFlair.getD b.scoreboardFlair } := by
    intro b
    cases r.scoreboardFlair with
    | none => rfl
    | some v => simp [Field.set, readUInt32_numeral]
  rw [BotRecord.fields, List.foldl_append, hsteamid, List.foldl_append, hname, List.foldl_append,
    hping, List.foldl_append, hcrosshair, hflair]

/-- In whatever order the fields are written, the reader makes the identity they stand for. -/
theorem cut_identityOf (r : WrittenRecord) (index : Nat) :
    (identityOf r.text.head.key index r.text.fields).cut = r.record.identity index := by
  have hfold : identityOf r.text.head.key index r.text.fields =
      r.record.fields.foldl Field.set
        { name := r.record.key, steamId := kSteamIdBase + UInt64.ofNat index } := by
    rw [identityOf, r.key_eq, ← List.foldl_map]
    refine r.fields_perm.foldl_eq' ?_ _
    intro f hf g hg b
    exact set_comm (r.fields_perm.mem_iff.mp hf) (r.fields_perm.mem_iff.mp hg) b
  have hping : (r.record.ping.map Int.ofNat).getD 0 = ((r.record.ping.getD 0 : Nat) : Int) := by
    cases r.record.ping <;> rfl
  rw [hfold, foldl_set_fields, BotIdentity.cut, BotRecord.identity, truncateUtf8]
  dsimp only
  rw [hping]
  by_cases hlong : kMaxPersonaNameBytes < (r.record.name.getD r.record.key).length
  · rw [if_pos hlong]
  · rw [if_neg hlong, if_pos (by omega)]

/-- The records that still fit are appended, each as the identity of its place. -/
theorem bots_foldl_written {rs : List WrittenRecord} (hlen : info.bots.length ≤ kMaxBotIdentities) :
    ((rs.map WrittenRecord.text).foldl BotInfo.addRecord info).bots =
      info.bots ++ ((rs.take (kMaxBotIdentities - info.bots.length)).zipIdx info.bots.length).map
        fun p => p.1.record.identity p.2 := by
  induction rs generalizing info with
  | nil => simp
  | cons r rs ih =>
    rw [List.map_cons, List.foldl_cons]
    have hadd : (info.addRecord r.text).bots =
        if info.bots.length < kMaxBotIdentities then
          info.bots ++ [r.record.identity info.bots.length]
        else info.bots := by
      rw [BotInfo.addRecord, bots_keep, cut_identityOf]
    by_cases hroom : info.bots.length < kMaxBotIdentities
    · rw [if_pos hroom] at hadd
      have hlen' : (info.addRecord r.text).bots.length = info.bots.length + 1 := by
        rw [hadd, List.length_append, List.length_singleton]
      obtain ⟨room, hroom'⟩ : ∃ room, kMaxBotIdentities - info.bots.length = room + 1 :=
        ⟨kMaxBotIdentities - info.bots.length - 1, by omega⟩
      rw [ih (by omega), hlen', hadd, hroom', List.take_succ_cons, List.zipIdx_cons, List.map_cons,
        show kMaxBotIdentities - (info.bots.length + 1) = room by omega, List.append_assoc]
      rfl
    · rw [if_neg hroom] at hadd
      have hfull : kMaxBotIdentities - info.bots.length = 0 := by omega
      rw [ih (by rw [hadd]; exact hlen), hadd, hfull]
      simp

theorem dropped_keep {b : BotIdentity} : (info.keep b).droppedOnLoad =
    if info.bots.length < kMaxBotIdentities then info.droppedOnLoad else info.droppedOnLoad + 1 := by
  by_cases hlong : kMaxPersonaNameBytes < b.name.length <;>
    by_cases hroom : info.bots.length < kMaxBotIdentities <;>
    simp [BotInfo.keep, hlong, hroom]

/-- Every record beyond the bound is counted. -/
theorem dropped_foldl_addRecord {rs : List RecordText} (hlen : info.bots.length ≤ kMaxBotIdentities) :
    (rs.foldl BotInfo.addRecord info).droppedOnLoad =
      info.droppedOnLoad + (info.bots.length + rs.length - kMaxBotIdentities) := by
  induction rs generalizing info with
  | nil =>
    rw [List.foldl_nil, List.length_nil]
    omega
  | cons r rs ih =>
    have hcount : (info.addRecord r).bots.length = min (info.bots.length + 1) kMaxBotIdentities :=
      @length_bots_foldl_addRecord info [r] hlen
    have hdropped : (info.addRecord r).droppedOnLoad =
        if info.bots.length < kMaxBotIdentities then info.droppedOnLoad
        else info.droppedOnLoad + 1 := dropped_keep
    rw [List.foldl_cons, ih (by omega), hcount, hdropped, List.length_cons]
    split <;> omega

/-- A whole identity list: one `bots` object among other members, with any blanks. -/
structure WrittenList where
  lead : Bytes
  ws : Bytes
  tail : Bytes
  before : List OtherText
  block : BlockText
  records : List WrittenRecord
  after : List OtherText
  lead_blank : Blank lead
  ws_blank : Blank ws
  keys_ne : ∀ t ∈ before ++ after, t.head.key ≠ []
  records_eq : block.records = records.map WrittenRecord.text

def WrittenList.tops (l : WrittenList) : List TopText :=
  l.before.map TopText.other ++ TopText.bots l.block :: l.after.map TopText.other

def WrittenList.file (l : WrittenList) : Bytes :=
  objectText l.lead l.ws (l.tops.map TopText.member) l.tail

theorem WrittenList.records_tops (l : WrittenList) :
    l.tops.flatMap TopText.records = l.records.map WrittenRecord.text := by
  have hother : ∀ os : List OtherText, (os.map TopText.other).flatMap TopText.records = [] := by
    intro os
    rw [List.flatMap_map]
    exact List.flatMap_eq_nil_iff.mpr fun _ _ => rfl
  rw [WrittenList.tops, List.flatMap_append, List.flatMap_cons, hother, hother, List.nil_append,
    List.append_nil]
  exact l.records_eq

theorem WrittenList.isNamed_tops (l : WrittenList) : ∀ t ∈ l.tops, t.isNamed = true := by
  have hother : ∀ os : List OtherText, (∀ t ∈ os, t.head.key ≠ []) →
      ∀ t ∈ os.map TopText.other, t.isNamed = true := by
    intro os hos t ht
    obtain ⟨o, ho, rfl⟩ := List.mem_map.mp ht
    exact decide_eq_true (hos o ho)
  intro t ht
  rw [WrittenList.tops, List.mem_append, List.mem_cons] at ht
  rcases ht with ht | rfl | ht
  · exact hother _ (fun o ho => l.keys_ne o (List.mem_append_left _ ho)) t ht
  · rw [TopText.isNamed, List.all_eq_true, l.records_eq]
    intro r hr
    obtain ⟨w, -, rfl⟩ := List.mem_map.mp hr
    exact w.key_ne
  · exact hother _ (fun o ho => l.keys_ne o (List.mem_append_right _ ho)) t ht

/-- Loading undoes writing: the pool is the first 256 records, in order. -/
theorem loadBots_written (info : BotInfo) (l : WrittenList) :
    (info.loadBots (some l.file)).1 = true ∧
      (info.loadBots (some l.file)).2.bots =
        (l.records.take 256).zipIdx.map (fun p => p.1.record.identity p.2) ∧
      (info.loadBots (some l.file)).2.droppedOnLoad = l.records.length - 256 := by
  rw [WrittenList.file, loadBots_tops l.lead_blank l.ws_blank l.isNamed_tops, foldl_addTop, l.records_tops]
  refine ⟨rfl, ?_, ?_⟩
  · dsimp only
    rw [bots_foldl_written (Nat.zero_le _)]
    rfl
  · dsimp only
    rw [dropped_foldl_addRecord (Nat.zero_le _), List.length_map]
    simp [kMaxBotIdentities]

end Botid
