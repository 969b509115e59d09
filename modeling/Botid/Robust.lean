import Botid.BotList
import Botid.Language
import Botid.Settings
import Botid.Tracking

/-! The configuration readers return on any text, without reading or cutting behind its end. -/
namespace Botid

open Indexed

variable {α : Type} {s : Bytes} {i bound : Nat} {x : α}
  {member : Bytes → α → Nat → Except Fault (α × Nat)} {member' : Bytes → α → Bytes → α × Bytes}

/-- What a reader does with a member keeps step from anywhere in the text. -/
def TracksMember (s : Bytes) (bound : Nat) (member : Bytes → α → Nat → Except Fault (α × Nat))
    (member' : Bytes → α → Bytes → α × Bytes) : Prop :=
  ∀ k x i, i ≤ s.length → Tracks s bound (member k x i) (member' k x (s.drop i))

/-- A turn that ends at the end of the text or at the closing byte keeps step if the rest of it does. -/
theorem tracks_unlessClosed {close : UInt8} {rest : UInt8 → Except Fault ((α × Nat) × Bool)}
    {rest' : (α × Bytes) × Bool} (hi : i ≤ bound)
    (hrest : i < s.length → TracksTurn s bound (rest (peek (s.drop i))) rest') :
    TracksTurn s bound
      (if decide (s.drop i ≠ []) = true then
        charAt s i >>= fun c => if c = close then pure ((x, i), false) else rest c
      else pure ((x, i), false))
      (if s.drop i = [] ∨ peek (s.drop i) = close then ((x, s.drop i), false) else rest') := by
  by_cases hend : s.drop i = []
  · rw [if_neg (by simp [hend]), if_pos (Or.inl hend)]
    exact ⟨i, rfl, rfl, hi⟩
  · have hlt : i < s.length := by simpa using hend
    rw [if_pos (by simp [hend]), charAt_eq hlt.le, ok_bind]
    by_cases hc : peek (s.drop i) = close
    · rw [if_pos hc, if_pos (Or.inr hc)]
      exact ⟨i, rfl, rfl, hi⟩
    · rw [if_neg hc, if_neg (not_or.mpr ⟨hend, hc⟩)]
      exact hrest hlt

/-- And so does one that reads a key and a colon. -/
theorem tracks_keyed {rest : Bytes × Nat → Bool × Nat → Except Fault ((α × Nat) × Bool)}
    {rest' : (α × Bytes) × Bool} (hs : s.length ≤ bound) (hi : i ≤ s.length)
    (hrest : ∀ k l, l ≤ s.length → s.drop l = (matchChar colon (readString (s.drop i)).2).2 →
      TracksTurn s bound (rest ((readString (s.drop i)).1, k) (true, l)) rest') :
    TracksTurn s bound
      (Indexed.readKey s i >>= fun key =>
        if key.1 = [] then pure ((x, key.2), false)
        else Indexed.matchChar s colon key.2 >>= fun afterKey =>
          if afterKey.1 = true then rest key afterKey else pure ((x, afterKey.2), false))
      (if (readKey (s.drop i)).1 = [] then ((x, (readKey (s.drop i)).2), false)
      else if (!(matchChar colon (readKey (s.drop i)).2).1) = true then
        ((x, (matchChar colon (readKey (s.drop i)).2).2), false)
      else rest') := by
  obtain ⟨k, hk, hkey, hle⟩ := @tracks_readString s i
  rw [Indexed.readKey, hk, ok_bind, readKey]
  split
  · exact ⟨k, rfl, hkey, by omega⟩
  · obtain ⟨l, hl, hcolon, hle'⟩ := @tracks_matchChar s k colon
    rw [hkey] at hl hcolon
    rw [hl, ok_bind]
    cases hfound : (matchChar colon (readString (s.drop i)).2).1 with
    | false =>
      rw [if_neg (by simp), if_pos (by rfl)]
      exact ⟨l, rfl, hcolon, by omega⟩
    | true =>
      rw [if_pos rfl, if_neg (by simp)]
      exact hrest k l (by omega) hcolon

theorem tracks_memberTurn (hmember : TracksMember s bound member member') (hs : s.length ≤ bound)
    (hi : i ≤ bound) :
    TracksTurn s bound (Indexed.memberTurn s member (x, i)) (memberTurn member' (x, s.drop i)) := by
  obtain ⟨j, hj, hdrop, hle⟩ := @tracks_skipWhitespace s i
  simp only at hdrop
  rw [Indexed.memberTurn, hj, ok_bind, memberTurn, ← hdrop]
  dsimp only
  refine tracks_unlessClosed (by omega) fun hlt => tracks_keyed hs hlt.le fun k l hl hcolon => ?_
  obtain ⟨m, hm, hrest, hm'⟩ := hmember (readString (s.drop j)).1 x l hl
  obtain ⟨n, hn, hcomma, hn'⟩ := @tracks_matchChar s m comma
  rw [readKey, ← hcolon, hm, ok_bind, hn, ← hrest]
  exact ⟨n, rfl, hcomma, by omega⟩

theorem tracks_readMembers (hmember : TracksMember s bound member member') (hconsumes : Consumes member')
    (hs : s.length ≤ bound) (hi : i ≤ bound) :
    Tracks s bound (Indexed.readMembers s member (x, i)) (readMembers member' (x, s.drop i)) := by
  obtain ⟨j, hj, hdrop, hle⟩ := @tracks_loop _ s i bound _ _ (s.length + 2) x
    (fun _ _ hk => tracks_memberTurn hmember hs hk) (shrinks_memberTurn hconsumes) hi
    (by rw [List.length_drop]; omega)
  obtain ⟨k, hk, hrest, hle'⟩ := @tracks_matchChar s j closeBrace
  rw [Indexed.readMembers, hj, ok_bind, hk, ok_bind, readMembers, ← hdrop]
  exact ⟨k, rfl, hrest, by omega⟩

theorem tracks_blockMember (hmember : TracksMember s s.length member member') :
    TracksMember s s.length (Indexed.blockMember s member) (blockMember member') := by
  intro k x i hi
  obtain ⟨j, hj, hdrop, hle⟩ := hmember k x i hi
  obtain ⟨l, hl, hrest, hle'⟩ := moves_skipBlockValue hle
  rw [Indexed.blockMember, hj, ok_bind, hl, ok_bind, blockMember, ← hdrop]
  exact ⟨l, rfl, hrest, hle'⟩

theorem tracks_readBlock (hmember : TracksMember s s.length member member')
    (hconsumes : Consumes member') (hi : i ≤ s.length) :
    Tracks s s.length (Indexed.readBlock s member (x, i)) (readBlock member' (x, s.drop i)) := by
  obtain ⟨j, hj, hdrop, hle⟩ := @tracks_matchChar s i openBrace
  rw [Indexed.readBlock, hj, ok_bind, readBlock, ← hdrop]
  cases (matchChar openBrace (s.drop i)).1 with
  | false => exact ⟨j, rfl, rfl, by omega⟩
  | true =>
    exact tracks_readMembers (tracks_blockMember hmember) (consumes_blockMember hconsumes) le_rfl
      (by omega)

theorem tracks_readFlag (hi : i ≤ s.length) :
    Tracks s s.length (Indexed.readFlag s i) (readFlag (s.drop i)) := by
  obtain ⟨j, hj, hdrop, hle⟩ := @tracks_skipWhitespace s i
  obtain ⟨k, hk, hrest, hle'⟩ := @moves_scanPast s j insideScalar
  simp only at hdrop
  rw [Indexed.readFlag, hj, ok_bind, charAt_eq (by omega), ok_bind, hk, ok_bind, readFlag, ← hdrop]
  exact ⟨k, rfl, hrest, by omega⟩

theorem Tracks.within {β : Type} {y : Except Fault (β × Nat)} {z : β × Bytes} (hi : i ≤ s.length)
    (h : Tracks s (max i s.length) y z) : Tracks s s.length y z := by
  rwa [Nat.max_eq_right hi] at h

theorem Tracks.mono {β : Type} {y : Except Fault (β × Nat)} {z : β × Bytes} {bound' : Nat}
    (hle : bound ≤ bound') (h : Tracks s bound y z) : Tracks s bound' y z := by
  obtain ⟨j, hj, hdrop, hj'⟩ := h
  exact ⟨j, hj, hdrop, hj'.trans hle⟩

theorem Tracks.ite {β : Type} {y y' : Except Fault (β × Nat)} {z z' : β × Bytes} {p : Prop} [Decidable p]
    (h : Tracks s bound y z) (h' : Tracks s bound y' z') :
    Tracks s bound (if p then y else y') (if p then z else z') := by
  by_cases hp : p
  · rwa [if_pos hp, if_pos hp]
  · rwa [if_neg hp, if_neg hp]

theorem tracks_here (hi : i ≤ s.length) : Tracks s s.length (pure (x, i)) (x, s.drop i) :=
  ⟨i, rfl, rfl, hi⟩

theorem Moves.with {y : Except Fault Nat} {rest : Bytes} (h : Moves s bound y rest) :
    Tracks s bound (y >>= fun j => pure (x, j)) (x, rest) := by
  obtain ⟨j, rfl, hdrop, hle⟩ := h
  exact ⟨j, rfl, hdrop, hle⟩

theorem tracks_onFeature : TracksMember s s.length (Indexed.onFeature s) onFeature := by
  intro k f i hi
  have hflag := tracks_readFlag hi
  have hint := tracks_readInt.within hi
  have huint := tracks_readUInt32.within hi
  have hdouble := tracks_readDouble.within hi
  unfold Indexed.onFeature onFeature
  exact .ite (hflag.map fun b => { f with enableFakePing := b }) <|
    .ite (hint.map fun n => { f with fakePingMin := n }) <|
    .ite (hint.map fun n => { f with fakePingMax := n }) <|
    .ite (hflag.map fun b => { f with enableScoreboardFlair := b }) <|
    .ite (hdouble.map fun d => { f with scoreboardFlairProbability := d }) <|
    .ite (hflag.map fun b => { f with enableCrosshair := b }) <|
    .ite (huint.map fun n => { f with defaultScoreboardFlair := n }) <|
    .ite (hint.map fun n => { f with pingJitterPercent := n }) <|
    .ite (hint.map fun n => { f with voteTransactionHoldFrames := n }) (tracks_here hi)

theorem tracks_blacklistTurn {l : List Bytes} (hi : i ≤ s.length) :
    TracksTurn s s.length (Indexed.blacklistTurn s (l, i)) (blacklistTurn (l, s.drop i)) := by
  obtain ⟨j, hj, hdrop, hle⟩ := @tracks_skipWhitespace s i
  simp only at hdrop
  rw [Indexed.blacklistTurn, hj, ok_bind, blacklistTurn, ← hdrop]
  dsimp only
  refine tracks_unlessClosed (by omega) fun hlt => ?_
  by_cases hquote : peek (s.drop j) = quote
  · obtain ⟨k, hk, hrest, hle'⟩ := @tracks_readString s j
    obtain ⟨m, hm, hcomma, hle''⟩ := @tracks_matchChar s k comma
    rw [if_pos hquote, if_pos hquote, hk, ok_bind, trimAscii_eq, ok_bind, hm, ok_bind, ← hrest]
    exact ⟨m, rfl, hcomma, by omega⟩
  · obtain ⟨k, hk, hrest, hle'⟩ := moves_skipJsonValue hlt.le
    obtain ⟨m, hm, hcomma, hle''⟩ := @tracks_matchChar s k comma
    rw [if_neg hquote, if_neg hquote, hk, ok_bind, hm, ok_bind, ← hrest]
    exact ⟨m, rfl, hcomma, by omega⟩

theorem tracks_readBlacklist {l : List Bytes} (hi : i ≤ s.length) :
    Tracks s s.length (Indexed.readBlacklist s (l, i)) (readBlacklist (l, s.drop i)) := by
  obtain ⟨j, hj, hdrop, hle⟩ := @tracks_matchChar s i openBracket
  rw [Indexed.readBlacklist, hj, ok_bind, readBlacklist, ← hdrop]
  cases (matchChar openBracket (s.drop i)).1 with
  | false => exact (moves_skipJsonValue (by omega)).with
  | true =>
    obtain ⟨k, hk, hrest, hle'⟩ := @tracks_loop _ s j s.length _ _ (s.length + 2) l
      (fun _ _ hk => tracks_blacklistTurn hk) shrinks_blacklistTurn (by omega)
      (by rw [List.length_drop]; omega)
    obtain ⟨m, hm, hbracket, hle''⟩ := @tracks_matchChar s k closeBracket
    rw [if_pos rfl, hk, ok_bind, hm, ok_bind, if_pos rfl]
    dsimp only
    rw [← hrest]
    exact ⟨m, rfl, hbracket, by omega⟩

/-- Behind an unknown key `Load` can leave the cursor one place behind the text. -/
theorem tracks_onSetting : TracksMember s (s.length + 1) (Indexed.onSetting s) onSetting := by
  intro k info i hi
  have hfeatures : Tracks s s.length (Indexed.readBlock s (Indexed.onFeature s) (info.features, i))
      (readBlock onFeature (info.features, s.drop i)) :=
    tracks_readBlock tracks_onFeature consumes_onFeature hi
  have hblacklist := @tracks_readBlacklist s i info.mapBlacklist hi
  unfold Indexed.onSetting onSetting
  refine .ite ?_ (.ite ?_ (moves_skipTopValue hi).with)
  · exact (hfeatures.map fun f => { info with features := f }).mono s.length.le_succ
  · exact (hblacklist.map fun l => { info with mapBlacklist := l }).mono s.length.le_succ

theorem tracks_onRecordField : TracksMember s s.length (Indexed.onRecordField s) onRecordField := by
  intro k b i hi
  have hstring := tracks_readString.within hi
  have hint := tracks_readInt.within hi
  have huint := tracks_readUInt32.within hi
  have hsteamId := tracks_readUInt64.within hi
  unfold Indexed.onRecordField onRecordField
  exact .ite (hsteamId.map fun n => { b with steamId := n }) <|
    .ite (hstring.map fun t => { b with name := t }) <|
    .ite (hint.map fun n => { b with ping := n }) <|
    .ite (hstring.map fun t => { b with crosshair := t }) <|
    .ite (huint.map fun n => { b with scoreboardFlair := n }) (tracks_here hi)

theorem tracks_readRecord {b : BotIdentity} (hi : i ≤ s.length) :
    Tracks s s.length (Indexed.readRecord s (b, i)) (readRecord (b, s.drop i)) := by
  obtain ⟨j, hj, hdrop, hle⟩ := @tracks_matchChar s i openBrace
  rw [Indexed.readRecord, hj, ok_bind, readRecord, ← hdrop]
  cases (matchChar openBrace (s.drop i)).1 with
  | false => exact ⟨j, rfl, rfl, by omega⟩
  | true => exact tracks_readMembers tracks_onRecordField consumes_onRecordField le_rfl (by omega)

theorem keep_eq {info : BotInfo} {b : BotIdentity} : Indexed.keep info b = .ok (info.keep b) := by
  rw [Indexed.keep, BotInfo.keep, truncateUtf8_eq]
  by_cases hlong : kMaxPersonaNameBytes < b.name.length
  · simp only [hlong, decide_true, if_true, ok_bind]
    split <;> rfl
  · simp only [hlong, decide_false, Bool.false_eq_true, if_false]
    split <;> rfl

theorem tracks_onBot : TracksMember s s.length (Indexed.onBot s) onBot := by
  intro k info i hi
  obtain ⟨j, hj, hdrop, hle⟩ := @tracks_readRecord s i (info.newIdentity k) hi
  rw [Indexed.onBot, hj, ok_bind, keep_eq, ok_bind, onBot, ← hdrop]
  exact ⟨j, rfl, rfl, hle⟩

theorem tracks_onBotsFileKey : TracksMember s s.length (Indexed.onBotsFileKey s) onBotsFileKey := by
  intro k info i hi
  unfold Indexed.onBotsFileKey onBotsFileKey
  exact .ite (tracks_readBlock tracks_onBot consumes_onBot hi) (moves_skipJsonValue hi).with

theorem tracks_languageTurn {o : Option Bytes} (hi : i ≤ s.length) :
    TracksTurn s s.length (Indexed.languageTurn s (o, i)) (languageTurn (o, s.drop i)) := by
  obtain ⟨j, hj, hdrop, hle⟩ := @tracks_skipWhitespace s i
  simp only at hdrop
  rw [Indexed.languageTurn, hj, ok_bind, languageTurn, ← hdrop]
  dsimp only
  refine tracks_unlessClosed (by omega) fun hlt => tracks_keyed le_rfl hlt.le fun k l hl hcolon => ?_
  rw [readKey, ← hcolon]
  by_cases hlanguage : (readString (s.drop j)).1 = ascii "ServerLanguage"
  · obtain ⟨m, hm, hrest, hm'⟩ := @tracks_readString s l
    rw [if_pos hlanguage, if_pos hlanguage, hm]
    exact ⟨m, rfl, hrest, by omega⟩
  · obtain ⟨m, hm, hrest, hm'⟩ := @moves_skipJsonValue s l hl
    obtain ⟨n, hn, hcomma, hn'⟩ := @tracks_matchChar s m comma
    rw [if_neg hlanguage, if_neg hlanguage, hm, ok_bind, hn, ← hrest]
    exact ⟨n, rfl, hcomma, by omega⟩

variable {info : BotInfo} {json : Bytes}

theorem indexed_load : Indexed.load info json = .ok (info.load (some json)) := by
  obtain ⟨j, hj, hdrop, hle⟩ := @tracks_matchChar json 0 openBrace
  rw [List.drop_zero] at hj hdrop
  rw [Indexed.load, hj, ok_bind, BotInfo.load]
  dsimp only
  cases (matchChar openBrace json).1 with
  | false => rfl
  | true =>
    obtain ⟨k, hk, -⟩ := @tracks_readMembers _ json j (json.length + 1)
      { info with mapBlacklist := [] } _ _ tracks_onSetting consumes_onSetting (by omega) (by omega)
    rw [if_pos rfl, hk, ok_bind, ← hdrop]
    rfl

theorem indexed_loadBots : Indexed.loadBots info json = .ok (info.loadBots (some json)) := by
  obtain ⟨j, hj, hdrop, hle⟩ := @tracks_matchChar json 0 openBrace
  rw [List.drop_zero] at hj hdrop
  rw [Indexed.loadBots, hj, ok_bind, BotInfo.loadBots]
  dsimp only
  cases (matchChar openBrace json).1 with
  | false => rfl
  | true =>
    obtain ⟨k, hk, -⟩ := @tracks_readMembers _ json j json.length
      { info with bots := [], droppedOnLoad := 0, truncatedOnLoad := 0 } _ _ tracks_onBotsFileKey
      consumes_onBotsFileKey le_rfl (by omega)
    rw [if_pos rfl, hk, ok_bind, ← hdrop]
    rfl

theorem indexed_readCssServerLanguage :
    Indexed.readCssServerLanguage json = .ok (readCssServerLanguage (some json)) := by
  obtain ⟨j, hj, hdrop, hle⟩ := @tracks_matchChar json 0 openBrace
  rw [List.drop_zero] at hj hdrop
  rw [Indexed.readCssServerLanguage, hj, ok_bind, readCssServerLanguage]
  dsimp only
  cases (matchChar openBrace json).1 with
  | false => rfl
  | true =>
    obtain ⟨k, hk, -⟩ := @tracks_loop _ json j json.length _ _ (json.length + 2) none
      (fun _ _ hk => tracks_languageTurn hk) shrinks_languageTurn (by omega)
      (by rw [List.length_drop]; omega)
    rw [if_pos rfl, hk, ok_bind, ← hdrop, if_pos rfl]
    cases (Loop.run (fun p => p.2.length) languageTurn (none, json.drop j)).1 with
    | none => rfl
    | some language => rfl

/-- The readers never subscript or cut behind the end of a text and never run out of turns on it,
whatever it is; and the index they keep reads what the cursor over suffixes does. -/
theorem readers_never_fault (info : BotInfo) (json : Bytes) :
    Indexed.load info json = .ok (info.load (some json)) ∧
    Indexed.loadBots info json = .ok (info.loadBots (some json)) ∧
    Indexed.readCssServerLanguage json = .ok (readCssServerLanguage (some json)) :=
  ⟨indexed_load, indexed_loadBots, indexed_readCssServerLanguage⟩

end Botid
