import Botid.BotInfoLoad

/-! The reader of `bot_info` once more, with the cursor as an index into the text: every subscript and
every `substr` is checked, and every loop counts its turns. -/
namespace Botid

/-- What a reader must never do. -/
inductive Fault
  /-- A subscript behind the terminating NUL. -/
  | subscript
  /-- A `substr` that starts behind the end of the string; the library throws. -/
  | substr
  /-- A loop still under way after more turns than the text has places. -/
  | stuck

namespace Indexed

variable {α β σ : Type}

/-- `s[i]`; at the end it is the terminating NUL. -/
def charAt (s : Bytes) (i : Nat) : Except Fault UInt8 :=
  if i ≤ s.length then .ok (s.getD i 0) else .error .subscript

def substr (s : Bytes) (start n : Nat) : Except Fault Bytes :=
  if start ≤ s.length then .ok ((s.drop start).take n) else .error .substr

/-- A loop whose turn says whether another one follows, stuck after `fuel` turns. -/
def loop (turn : σ → Except Fault (σ × Bool)) : Nat → σ → Except Fault σ
  | 0, _ => .error .stuck
  | fuel + 1, x => do
    let r ← turn x
    if r.2 then loop turn fuel r.1 else pure r.1

/-- `i < s.size() && p(s[i])`. -/
def matchesAt (p : UInt8 → Bool) (s : Bytes) (i : Nat) : Except Fault Bool :=
  if i < s.length then do
    let c ← charAt s i
    pure (p c)
  else pure false

/-- The scanning loops: `while (i < s.size() && p(s[i])) { v = f(v, s[i]); ++i; }`. -/
def scan (p : UInt8 → Bool) (f : β → UInt8 → β) (s : Bytes) (v : β) (i : Nat) :
    Except Fault (β × Nat) :=
  loop (fun (x : β × Nat) => do
    if ← matchesAt p s x.2 then
      let c ← charAt s x.2
      pure ((f x.1 c, x.2 + 1), true)
    else pure (x, false)) (s.length + 2) (v, i)

/-- A scan that only moves the cursor. -/
def scanPast (p : UInt8 → Bool) (s : Bytes) (i : Nat) : Except Fault Nat := do
  let r ← scan p (fun _ _ => ()) s () i
  pure r.2

def skipWhitespace (s : Bytes) (i : Nat) : Except Fault (Bool × Nat) := do
  let i ← scanPast isSpace s i
  pure (decide (i < s.length), i)

def matchChar (s : Bytes) (c : UInt8) (i : Nat) : Except Fault (Bool × Nat) := do
  let r ← skipWhitespace s i
  if ← matchesAt (· = c) s r.2 then pure (true, r.2 + 1) else pure (false, r.2)

def readString (s : Bytes) (i : Nat) : Except Fault (Bytes × Nat) := do
  let start ← matchChar s quote i
  if start.1 then
    let i ← scanPast (· ≠ quote) s start.2
    let r ← substr s start.2 (i - start.2)
    pure (r, if i < s.length then i + 1 else i)
  else pure ([], start.2)

def readKey (s : Bytes) (i : Nat) : Except Fault (Bytes × Nat) := readString s i

def readUInt64 (s : Bytes) (i : Nat) : Except Fault (UInt64 × Nat) := do
  let r ← skipWhitespace s i
  scan isDigit (fun v c => v * 10 + (c - 48).toUInt64) s 0 r.2

def readInt (s : Bytes) (i : Nat) : Except Fault (Int × Nat) := do
  let r ← readUInt64 s i
  pure (r.1.toUInt32.toInt32.toInt, r.2)

def readUInt32 (s : Bytes) (i : Nat) : Except Fault (UInt32 × Nat) := do
  let r ← readUInt64 s i
  pure (r.1.toUInt32, r.2)

def readDouble (s : Bytes) (i : Nat) : Except Fault (Float × Nat) := do
  let r ← skipWhitespace s i
  let whole ← scan isDigit (fun v c => v * 10.0 + (c - 48).toFloat) s 0.0 r.2
  if ← matchesAt (· = 46) s whole.2 then
    let r ← scan isDigit (fun (p : Float × Float) c => (p.1 + (c - 48).toFloat * p.2, p.2 * 0.1)) s
      (whole.1, 0.1) (whole.2 + 1)
    pure (r.1.1, r.2)
  else pure whole

/-- `TrimAscii`: the second loop moves the end backwards. -/
def trimAscii (s : Bytes) : Except Fault Bytes := do
  let start ← scanPast isSpace s 0
  let stop ← loop (fun stop => do
    if start < stop then
      let c ← charAt s (stop - 1)
      if isSpace c then pure (stop - 1, true) else pure (stop, false)
    else pure (stop, false)) (s.length + 2) s.length
  substr s start (stop - start)

def truncateUtf8 (s : Bytes) (maxBytes : Nat) : Except Fault Bytes :=
  if s.length ≤ maxBytes then pure s
  else do
    let i ← loop (fun i => do
      if 0 < i then
        let c ← charAt s i
        if c &&& 0xC0 = 0x80 then pure (i - 1, true) else pure (i, false)
      else pure (i, false)) (s.length + 2) maxBytes
    substr s 0 i

/-- One turn of the `do` loop in `SkipJsonValue`, over the depth and the cursor. -/
def skipNestedTurn (s : Bytes) (p : Nat × Nat) : Except Fault ((Nat × Nat) × Bool) :=
  if s.length ≤ p.2 then pure (p, false)
  else do
    let c ← charAt s p.2
    if c = quote then
      let r ← readString s p.2
      pure ((p.1, r.2), decide (r.2 < s.length ∧ 0 < p.1))
    else
      let depth :=
        if c = openBrace ∨ c = openBracket then p.1 + 1
        else if c = closeBrace ∨ c = closeBracket then p.1 - 1
        else p.1
      pure ((depth, p.2 + 1), decide (p.2 + 1 < s.length ∧ 0 < depth))

def skipJsonValue (s : Bytes) (i : Nat) : Except Fault Nat := do
  let r ← skipWhitespace s i
  if s.length ≤ r.2 then pure r.2
  else
    let c ← charAt s r.2
    if c = quote then
      let str ← readString s r.2
      pure str.2
    else if c = openBrace ∨ c = openBracket then
      let p ← loop (skipNestedTurn s) (s.length + 2) (0, r.2)
      pure p.2
    else scanPast (fun c => c ≠ comma ∧ c ≠ closeBrace ∧ c ≠ closeBracket) s r.2

/-- `while (i < json.size() && depth > 0)` over one kind of brackets. -/
def skipBrackets (opening closing : UInt8) (s : Bytes) (i : Nat) : Except Fault Nat := do
  let p ← loop (fun (p : Nat × Nat) => do
    if p.2 < s.length ∧ 0 < p.1 then
      let c ← charAt s p.2
      pure ((if c = opening then p.1 + 1 else if c = closing then p.1 - 1 else p.1, p.2 + 1), true)
    else pure (p, false)) (s.length + 2) (1, i)
  pure p.2

def skipBlockValue (s : Bytes) (i : Nat) : Except Fault Nat := do
  let c ← charAt s i
  if c = openBrace then skipBrackets openBrace closeBrace s i
  else if c = openBracket then skipBrackets openBracket closeBracket s i
  else scanPast insideScalar s i

/-- `while (++i < json.size() && depth > 0) { .. } ++i;` -/
def skipTopBrackets (opening closing : UInt8) (s : Bytes) (i : Nat) : Except Fault Nat := do
  let p ← loop (fun (p : Nat × Nat) => do
    let i := p.2 + 1
    if i < s.length ∧ 0 < p.1 then
      let c ← charAt s i
      pure ((if c = opening then p.1 + 1 else if c = closing then p.1 - 1 else p.1, i), true)
    else pure ((p.1, i), false)) (s.length + 2) (1, i)
  pure (p.2 + 1)

def skipTopValue (s : Bytes) (i : Nat) : Except Fault Nat := do
  let c ← charAt s i
  if c = openBrace then skipTopBrackets openBrace closeBrace s i
  else if c = openBracket then skipTopBrackets openBracket closeBracket s i
  else scanPast insideScalar s i

/-- One turn of the loop over the members of an object. -/
def memberTurn (s : Bytes) (member : Bytes → α → Nat → Except Fault (α × Nat)) (p : α × Nat) :
    Except Fault ((α × Nat) × Bool) := do
  let r ← skipWhitespace s p.2
  if r.1 then
    let c ← charAt s r.2
    if c = closeBrace then pure ((p.1, r.2), false)
    else
      let key ← readKey s r.2
      if key.1 = [] then pure ((p.1, key.2), false)
      else
        let afterKey ← matchChar s colon key.2
        if afterKey.1 then
          let read ← member key.1 p.1 afterKey.2
          let afterValue ← matchChar s comma read.2
          pure ((read.1, afterValue.2), afterValue.1)
        else pure ((p.1, afterKey.2), false)
  else pure ((p.1, r.2), false)

def readMembers (s : Bytes) (member : Bytes → α → Nat → Except Fault (α × Nat)) (p : α × Nat) :
    Except Fault (α × Nat) := do
  let q ← loop (memberTurn s member) (s.length + 2) p
  let r ← matchChar s closeBrace q.2
  pure (q.1, r.2)

def blockMember (s : Bytes) (onKey : Bytes → α → Nat → Except Fault (α × Nat)) (key : Bytes) (x : α)
    (i : Nat) : Except Fault (α × Nat) := do
  let read ← onKey key x i
  let i ← skipBlockValue s read.2
  pure (read.1, i)

def readBlock (s : Bytes) (onKey : Bytes → α → Nat → Except Fault (α × Nat)) (p : α × Nat) :
    Except Fault (α × Nat) := do
  let brace ← matchChar s openBrace p.2
  if brace.1 then readMembers s (blockMember s onKey) (p.1, brace.2) else pure (p.1, brace.2)

def readFlag (s : Bytes) (i : Nat) : Except Fault (Bool × Nat) := do
  let r ← skipWhitespace s i
  let c ← charAt s r.2
  let i ← scanPast insideScalar s r.2
  pure (decide (c = 116 ∨ c = 49), i)

def onFeature (s : Bytes) (key : Bytes) (f : PluginFeatures) (i : Nat) :
    Except Fault (PluginFeatures × Nat) :=
  if key = ascii "enableFakePing" then do
    let r ← readFlag s i
    pure ({ f with enableFakePing := r.1 }, r.2)
  else if key = ascii "fakePingMin" then do
    let r ← readInt s i
    pure ({ f with fakePingMin := r.1 }, r.2)
  else if key = ascii "fakePingMax" then do
    let r ← readInt s i
    pure ({ f with fakePingMax := r.1 }, r.2)
  else if key = ascii "enableScoreboardFlair" then do
    let r ← readFlag s i
    pure ({ f with enableScoreboardFlair := r.1 }, r.2)
  else if key = ascii "scoreboardFlairProbability" then do
    let r ← readDouble s i
    pure ({ f with scoreboardFlairProbability := r.1 }, r.2)
  else if key = ascii "enableCrosshair" then do
    let r ← readFlag s i
    pure ({ f with enableCrosshair := r.1 }, r.2)
  else if key = ascii "defaultScoreboardFlair" then do
    let r ← readUInt32 s i
    pure ({ f with defaultScoreboardFlair := r.1 }, r.2)
  else if key = ascii "pingJitterPercent" then do
    let r ← readInt s i
    pure ({ f with pingJitterPercent := r.1 }, r.2)
  else if key = ascii "voteTransactionHoldFrames" then do
    let r ← readInt s i
    pure ({ f with voteTransactionHoldFrames := r.1 }, r.2)
  else pure (f, i)

/-- One turn of the loop over the `mapBlacklist` array. -/
def blacklistTurn (s : Bytes) (p : List Bytes × Nat) : Except Fault ((List Bytes × Nat) × Bool) := do
  let r ← skipWhitespace s p.2
  if r.1 then
    let c ← charAt s r.2
    if c = closeBracket then pure ((p.1, r.2), false)
    else if c = quote then
      let str ← readString s r.2
      let token ← trimAscii str.1
      let afterValue ← matchChar s comma str.2
      pure ((if token = [] then p.1 else p.1 ++ [token], afterValue.2), afterValue.1)
    else
      let i ← skipJsonValue s r.2
      let afterValue ← matchChar s comma i
      pure ((p.1, afterValue.2), afterValue.1)
  else pure ((p.1, r.2), false)

def readBlacklist (s : Bytes) (p : List Bytes × Nat) : Except Fault (List Bytes × Nat) := do
  let bracket ← matchChar s openBracket p.2
  if bracket.1 then
    let q ← loop (blacklistTurn s) (s.length + 2) (p.1, bracket.2)
    let r ← matchChar s closeBracket q.2
    pure (q.1, r.2)
  else
    let i ← skipJsonValue s bracket.2
    pure (p.1, i)

def onSetting (s : Bytes) (key : Bytes) (info : BotInfo) (i : Nat) : Except Fault (BotInfo × Nat) :=
  if key = ascii "features" then do
    let r ← readBlock s (onFeature s) (info.features, i)
    pure ({ info with features := r.1 }, r.2)
  else if key = ascii "mapBlacklist" then do
    let r ← readBlacklist s (info.mapBlacklist, i)
    pure ({ info with mapBlacklist := r.1 }, r.2)
  else do
    let i ← skipTopValue s i
    pure (info, i)

/-- `BotInfo::Load` on the contents of `config.json`. -/
def load (info : BotInfo) (json : Bytes) : Except Fault (Bool × BotInfo) := do
  let brace ← matchChar json openBrace 0
  if brace.1 then
    let read ← readMembers json (onSetting json) ({ info with mapBlacklist := [] }, brace.2)
    pure (true, { read.1 with features := clampHoldFrames read.1.features })
  else pure (false, info)

def onRecordField (s : Bytes) (key : Bytes) (b : BotIdentity) (i : Nat) :
    Except Fault (BotIdentity × Nat) :=
  if key = ascii "steamid" then do
    let r ← readUInt64 s i
    pure ({ b with steamId := r.1 }, r.2)
  else if key = ascii "name" then do
    let r ← readString s i
    pure ({ b with name := r.1 }, r.2)
  else if key = ascii "ping" then do
    let r ← readInt s i
    pure ({ b with ping := r.1 }, r.2)
  else if key = ascii "crosshair" then do
    let r ← readString s i
    pure ({ b with crosshair := r.1 }, r.2)
  else if key = ascii "scoreboardFlair" then do
    let r ← readUInt32 s i
    pure ({ b with scoreboardFlair := r.1 }, r.2)
  else pure (b, i)

def readRecord (s : Bytes) (p : BotIdentity × Nat) : Except Fault (BotIdentity × Nat) := do
  let brace ← matchChar s openBrace p.2
  if brace.1 then readMembers s (onRecordField s) (p.1, brace.2) else pure (p.1, brace.2)

def keep (info : BotInfo) (b : BotIdentity) : Except Fault BotInfo := do
  let long := decide (kMaxPersonaNameBytes < b.name.length)
  let name ← if long then truncateUtf8 b.name kMaxPersonaNameBytes else pure b.name
  let b := if long then { b with name := name } else b
  let info := if long then { info with truncatedOnLoad := info.truncatedOnLoad + 1 } else info
  if info.bots.length < kMaxBotIdentities then pure { info with bots := info.bots ++ [b] }
  else pure { info with droppedOnLoad := info.droppedOnLoad + 1 }

def onBot (s : Bytes) (botName : Bytes) (info : BotInfo) (i : Nat) : Except Fault (BotInfo × Nat) := do
  let r ← readRecord s (info.newIdentity botName, i)
  let info ← keep info r.1
  pure (info, r.2)

def onBotsFileKey (s : Bytes) (key : Bytes) (info : BotInfo) (i : Nat) :
    Except Fault (BotInfo × Nat) :=
  if key = ascii "bots" then readBlock s (onBot s) (info, i)
  else do
    let i ← skipJsonValue s i
    pure (info, i)

/-- `BotInfo::LoadBots` on the contents of the identity list. -/
def loadBots (info : BotInfo) (json : Bytes) : Except Fault (Bool × BotInfo) := do
  let brace ← matchChar json openBrace 0
  if brace.1 then
    let read ← readMembers json (onBotsFileKey json)
      ({ info with bots := [], droppedOnLoad := 0, truncatedOnLoad := 0 }, brace.2)
    pure (true, read.1)
  else pure (false, info)

/-- One turn of the loop of `ReadCssServerLanguage`; `some` language ends it. -/
def languageTurn (s : Bytes) (p : Option Bytes × Nat) : Except Fault ((Option Bytes × Nat) × Bool) := do
  let r ← skipWhitespace s p.2
  if r.1 then
    let c ← charAt s r.2
    if c = closeBrace then pure ((none, r.2), false)
    else
      let key ← readKey s r.2
      if key.1 = [] then pure ((none, key.2), false)
      else
        let afterKey ← matchChar s colon key.2
        if afterKey.1 then
          if key.1 = ascii "ServerLanguage" then
            let language ← readString s afterKey.2
            pure ((some language.1, language.2), false)
          else
            let i ← skipJsonValue s afterKey.2
            let afterValue ← matchChar s comma i
            pure ((none, afterValue.2), afterValue.1)
        else pure ((none, afterKey.2), false)
  else pure ((none, r.2), false)

/-- `ReadCssServerLanguage` on the contents of `core.json`: whether it found a language, and which. -/
def readCssServerLanguage (json : Bytes) : Except Fault (Bool × Bytes) := do
  let brace ← matchChar json openBrace 0
  if brace.1 then
    let q ← loop (languageTurn json) (json.length + 2) (none, brace.2)
    match q.1 with
    | some language => pure (decide (language ≠ []), language)
    | none => pure (false, [])
  else pure (false, [])

end Indexed

end Botid
