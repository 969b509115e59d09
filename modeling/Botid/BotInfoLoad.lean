import Botid.BotInfo
import Botid.JsonReader

/-! `BotInfo::Load` and `BotInfo::LoadBots`: the two files behind the plugin's configuration. -/
namespace Botid

structure BotInfo where
  bots : List BotIdentity := []
  features : PluginFeatures := {}
  mapBlacklist : List Bytes := []
  droppedOnLoad : Nat := 0
  truncatedOnLoad : Nat := 0

/-- `json[i] == 't' || json[i] == '1'`, and the skip behind it. -/
def readFlag (s : Bytes) : Bool × Bytes :=
  let s := skipWhitespace s
  (decide (peek s = 116 ∨ peek s = 49), s.dropWhile insideScalar)

/-- What `Load` does with one key of the `features` block. -/
def onFeature (key : Bytes) (f : PluginFeatures) (s : Bytes) : PluginFeatures × Bytes :=
  if key = ascii "enableFakePing" then
    let r := readFlag s
    ({ f with enableFakePing := r.1 }, r.2)
  else if key = ascii "fakePingMin" then
    let r := readInt s
    ({ f with fakePingMin := r.1 }, r.2)
  else if key = ascii "fakePingMax" then
    let r := readInt s
    ({ f with fakePingMax := r.1 }, r.2)
  else if key = ascii "enableScoreboardFlair" then
    let r := readFlag s
    ({ f with enableScoreboardFlair := r.1 }, r.2)
  else if key = ascii "scoreboardFlairProbability" then
    let r := readDouble s
    ({ f with scoreboardFlairProbability := r.1 }, r.2)
  else if key = ascii "enableCrosshair" then
    let r := readFlag s
    ({ f with enableCrosshair := r.1 }, r.2)
  else if key = ascii "defaultScoreboardFlair" then
    let r := readUInt32 s
    ({ f with defaultScoreboardFlair := r.1 }, r.2)
  else if key = ascii "pingJitterPercent" then
    let r := readInt s
    ({ f with pingJitterPercent := r.1 }, r.2)
  else if key = ascii "voteTransactionHoldFrames" then
    let r := readInt s
    ({ f with voteTransactionHoldFrames := r.1 }, r.2)
  else (f, s)

/-- One turn of the loop over the `mapBlacklist` array. -/
def blacklistTurn (p : List Bytes × Bytes) : (List Bytes × Bytes) × Bool :=
  let s := skipWhitespace p.2
  if s = [] ∨ peek s = closeBracket then ((p.1, s), false)
  else
    let read : List Bytes × Bytes :=
      if peek s = quote then
        let token := readString s
        (if trimAscii token.1 = [] then p.1 else p.1 ++ [trimAscii token.1], token.2)
      else (p.1, skipJsonValue s)
    let afterValue := matchChar comma read.2
    ((read.1, afterValue.2), afterValue.1)

def readBlacklist (p : List Bytes × Bytes) : List Bytes × Bytes :=
  let bracket := matchChar openBracket p.2
  if bracket.1 then
    let q := Loop.run (fun p => p.2.length) blacklistTurn (p.1, bracket.2)
    (q.1, (matchChar closeBracket q.2).2)
  else (p.1, skipJsonValue bracket.2)

/-- What `Load` does with one top-level key. -/
def onSetting (key : Bytes) (info : BotInfo) (s : Bytes) : BotInfo × Bytes :=
  if key = ascii "features" then
    let r := readBlock onFeature (info.features, s)
    ({ info with features := r.1 }, r.2)
  else if key = ascii "mapBlacklist" then
    let r := readBlacklist (info.mapBlacklist, s)
    ({ info with mapBlacklist := r.1 }, r.2)
  else (info, skipTopValue s)

def clampHoldFrames (f : PluginFeatures) : PluginFeatures :=
  let f := if f.voteTransactionHoldFrames < 1 then { f with voteTransactionHoldFrames := 1 } else f
  if 32 < f.voteTransactionHoldFrames then { f with voteTransactionHoldFrames := 32 } else f

/-- `BotInfo::Load` on the contents of `config.json`, `none` where the file cannot be opened. -/
def BotInfo.load (info : BotInfo) (file : Option Bytes) : Bool × BotInfo :=
  match file with
  | none => (false, info)
  | some json =>
    let brace := matchChar openBrace json
    if brace.1 then
      let read := (readMembers onSetting ({ info with mapBlacklist := [] }, brace.2)).1
      (true, { read with features := clampHoldFrames read.features })
    else (false, info)

/-- What `LoadBots` does with one key of a bot's record; it skips nothing. -/
def onRecordField (key : Bytes) (b : BotIdentity) (s : Bytes) : BotIdentity × Bytes :=
  if key = ascii "steamid" then
    let r := readUInt64 s
    ({ b with steamId := r.1 }, r.2)
  else if key = ascii "name" then
    let r := readString s
    ({ b with name := r.1 }, r.2)
  else if key = ascii "ping" then
    let r := readInt s
    ({ b with ping := r.1 }, r.2)
  else if key = ascii "crosshair" then
    let r := readString s
    ({ b with crosshair := r.1 }, r.2)
  else if key = ascii "scoreboardFlair" then
    let r := readUInt32 s
    ({ b with scoreboardFlair := r.1 }, r.2)
  else (b, s)

def readRecord (p : BotIdentity × Bytes) : BotIdentity × Bytes :=
  let brace := matchChar openBrace p.2
  if brace.1 then readMembers onRecordField (p.1, brace.2) else (p.1, brace.2)

/-- The identity a record starts from. -/
def BotInfo.newIdentity (info : BotInfo) (botName : Bytes) : BotIdentity :=
  { name := botName, steamId := kSteamIdBase + UInt64.ofNat info.bots.length }

/-- A finished record: the name is cut to its cell, and a full list drops it. -/
def BotInfo.keep (info : BotInfo) (b : BotIdentity) : BotInfo :=
  let long := decide (kMaxPersonaNameBytes < b.name.length)
  let b := if long then { b with name := truncateUtf8 b.name kMaxPersonaNameBytes } else b
  let info := if long then { info with truncatedOnLoad := info.truncatedOnLoad + 1 } else info
  if info.bots.length < kMaxBotIdentities then { info with bots := info.bots ++ [b] }
  else { info with droppedOnLoad := info.droppedOnLoad + 1 }

/-- What `LoadBots` does with one key of the `bots` block. -/
def onBot (botName : Bytes) (info : BotInfo) (s : Bytes) : BotInfo × Bytes :=
  let r := readRecord (info.newIdentity botName, s)
  (info.keep r.1, r.2)

/-- What `LoadBots` does with one top-level key. -/
def onBotsFileKey (key : Bytes) (info : BotInfo) (s : Bytes) : BotInfo × Bytes :=
  if key = ascii "bots" then readBlock onBot (info, s) else (info, skipJsonValue s)

/-- `BotInfo::LoadBots` on the contents of the identity list. -/
def BotInfo.loadBots (info : BotInfo) (file : Option Bytes) : Bool × BotInfo :=
  match file with
  | none => (false, info)
  | some json =>
    let brace := matchChar openBrace json
    if brace.1 then
      (true, (readMembers onBotsFileKey
        ({ info with bots := [], droppedOnLoad := 0, truncatedOnLoad := 0 }, brace.2)).1)
    else (false, info)

/-- One turn of the loop of `ReadCssServerLanguage`; `some` language ends it. -/
def languageTurn (p : Option Bytes × Bytes) : (Option Bytes × Bytes) × Bool :=
  let s := skipWhitespace p.2
  if s = [] ∨ peek s = closeBrace then ((none, s), false)
  else
    let key := readKey s
    if key.1 = [] then ((none, key.2), false)
    else
      let afterKey := matchChar colon key.2
      if !afterKey.1 then ((none, afterKey.2), false)
      else if key.1 = ascii "ServerLanguage" then
        let language := readString afterKey.2
        ((some language.1, language.2), false)
      else
        let afterValue := matchChar comma (skipJsonValue afterKey.2)
        ((none, afterValue.2), afterValue.1)

/-- `ReadCssServerLanguage` on the contents of `core.json`: whether it found a language, and which. -/
def readCssServerLanguage (file : Option Bytes) : Bool × Bytes :=
  match file with
  | none => (false, [])
  | some json =>
    let brace := matchChar openBrace json
    if brace.1 then
      match (Loop.run (fun p => p.2.length) languageTurn (none, brace.2)).1 with
      | some language => (decide (language ≠ []), language)
      | none => (false, [])
    else (false, [])

end Botid
