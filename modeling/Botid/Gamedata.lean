import Botid.JsonReader
import Botid.QuotedText
import Botid.SignedArith

/-! `LoadGamedata`: the offsets and the signature that `gamedata.json` overrides. -/
namespace Botid

/-- The offsets that `LoadGamedata` may override. -/
inductive OffsetTarget
  | connectionTypeFlags
  | fakePlayer
  | userID
  | steamID
  | steamIDMirror
  | entityIndex
  | clientSlot
  | netChannel
  | signonState
  | controllerFakeClientFlags
  | controllerSteamID
  | controllerTeamNum
  | changeTeamVtable
  | clientList
  | entSysOffsetInGameResSvc
  | entSysIdentityChunksOffset
  | entIdentitySize
  | entIdentityInstanceOffset
  | entIdentityClassNameOffset
  deriving DecidableEq

def OffsetTarget.key : OffsetTarget → Bytes
  | connectionTypeFlags => ascii "CServerSideClient::m_nConnectionTypeFlags"
  | fakePlayer => ascii "CServerSideClient::m_bFakePlayer"
  | userID => ascii "CServerSideClient::m_UserID"
  | steamID => ascii "CServerSideClient::m_SteamID"
  | steamIDMirror => ascii "CServerSideClient::m_SteamIDMirror"
  | entityIndex => ascii "CServerSideClient::m_nEntityIndex"
  | clientSlot => ascii "CServerSideClient::m_nClientSlot"
  | netChannel => ascii "CServerSideClient::m_NetChannel"
  | signonState => ascii "CServerSideClient::m_nSignonState"
  | controllerFakeClientFlags => ascii "CBasePlayerController::FakeClientFlags"
  | controllerSteamID => ascii "CBasePlayerController::m_steamID"
  | controllerTeamNum => ascii "CBaseEntity::m_iTeamNum"
  | changeTeamVtable => ascii "CCSPlayerController_ChangeTeam"
  | clientList => ascii "CNetworkGameServerBase::m_Clients"
  | entSysOffsetInGameResSvc => ascii "GameResourceServiceServer::m_pEntitySystem"
  | entSysIdentityChunksOffset => ascii "CEntitySystem::m_EntityList"
  | entIdentitySize => ascii "CEntityIdentity::Size"
  | entIdentityInstanceOffset => ascii "CEntityIdentity::m_pInstance"
  | entIdentityClassNameOffset => ascii "CEntityIdentity::m_designerName"

/-- The order in which `LoadGamedata` asks for them. -/
def offsetTargets : List OffsetTarget :=
  [.connectionTypeFlags, .fakePlayer, .userID, .steamID, .steamIDMirror, .entityIndex, .clientSlot,
    .netChannel, .signonState, .controllerFakeClientFlags, .controllerSteamID, .controllerTeamNum,
    .changeTeamVtable, .clientList, .entSysOffsetInGameResSvc, .entSysIdentityChunksOffset,
    .entIdentitySize, .entIdentityInstanceOffset, .entIdentityClassNameOffset]

/-- What `LoadGamedata` may override; an offset is `none` once it was computed out of `int`. -/
structure Gamedata where
  offset : OffsetTarget → Option Int
  utilRemoveSig : Bytes

/-- The blanks that are skipped between a colon and its value. -/
def isSpaceOrTab (c : UInt8) : Bool := c = 32 ∨ c = 9

/-- The three searches that `ReadOffset` and `ReadLinuxString` begin with: the text behind the colon. -/
def findLinux (json key : Bytes) : Option Bytes := do
  let s ← QuotedText.find (quote :: (key ++ [quote])) json
  let s ← QuotedText.find (quote :: (ascii "linux" ++ [quote])) s
  let s ← QuotedText.find [colon] s
  pure (s.drop 1)

/-- `n = n * 10 + (json[pos] - '0')` in `int`, digit by digit. -/
def readDigits (digits : Bytes) : Option Int :=
  digits.foldlM (fun n c => (Signed.mul 32 n 10).bind fun m => Signed.add 32 m (c.toNat - 48)) 0

/-- What `ReadOffset` does behind the colon; without digits it is -1. -/
def readNumber (s : Bytes) : Option Int :=
  let s := s.dropWhile isSpaceOrTab
  let sign : Int := if peek s = 45 then -1 else 1
  let digits := (if peek s = 45 then s.drop 1 else s).takeWhile isDigit
  if digits = [] then some (-1) else (readDigits digits).bind fun n => Signed.mul 32 sign n

def readOffset (json key : Bytes) : Option Int :=
  match findLinux json key with
  | none => some (-1)
  | some s => readNumber s

/-- What `ReadLinuxString` does behind the colon. -/
def readQuoted (s : Bytes) : Bytes :=
  match s.dropWhile isSpaceOrTab with
  | [] => []
  | c :: s => if c = quote ∧ quote ∈ s then s.takeWhile (· ≠ quote) else []

def readLinuxString (json key : Bytes) : Bytes :=
  match findLinux json key with
  | none => []
  | some s => readQuoted s

/-- A target after `tryApply`. -/
def newOffset (json key : Bytes) (target : Option Int) : Option Int :=
  (readOffset json key).bind fun v => if 0 ≤ v then some v else target

def tryApply (json : Bytes) (g : Gamedata) (t : OffsetTarget) : Gamedata :=
  { g with offset := fun u => if u = t then newOffset json t.key (g.offset t) else g.offset u }

/-- `LoadGamedata` on the contents of `gamedata.json`, `none` where it cannot be opened. -/
def loadGamedata (file : Option Bytes) (g : Gamedata) : Gamedata :=
  match file with
  | none => g
  | some json =>
    let g := offsetTargets.foldl (tryApply json) g
    let utilSig := readLinuxString json (ascii "UTIL_Remove")
    if utilSig ≠ [] then { g with utilRemoveSig := utilSig } else g

variable {json : Bytes} {g : Gamedata} {t u : OffsetTarget} {ts : List OffsetTarget}

theorem mem_offsetTargets : t ∈ offsetTargets := by
  cases t <;> decide

theorem nodup_offsetTargets : offsetTargets.Nodup := by decide

theorem offset_foldl_of_not_mem (h : t ∉ ts) : (ts.foldl (tryApply json) g).offset t = g.offset t := by
  induction ts generalizing g with
  | nil => rfl
  | cons u ts ih =>
    rw [List.mem_cons, not_or] at h
    rw [List.foldl_cons, ih h.2]
    exact if_neg h.1

/-- Every target is asked for once, and the others leave it alone. -/
theorem offset_foldl (hnodup : ts.Nodup) (h : t ∈ ts) :
    (ts.foldl (tryApply json) g).offset t = newOffset json t.key (g.offset t) := by
  induction ts generalizing g with
  | nil => cases h
  | cons u ts ih =>
    obtain ⟨hu, hts⟩ := List.nodup_cons.mp hnodup
    rw [List.foldl_cons]
    rcases List.mem_cons.mp h with rfl | h
    · rw [offset_foldl_of_not_mem hu]
      exact if_pos rfl
    · rw [ih hts h]
      have hne : t ≠ u := fun htu => hu (htu ▸ h)
      exact congrArg (newOffset json t.key) (if_neg hne)

theorem offset_loadGamedata :
    (loadGamedata (some json) g).offset t = newOffset json t.key (g.offset t) := by
  rw [← offset_foldl nodup_offsetTargets mem_offsetTargets, loadGamedata]
  split <;> rfl

theorem utilRemoveSig_loadGamedata : (loadGamedata (some json) g).utilRemoveSig =
    if readLinuxString json (ascii "UTIL_Remove") ≠ [] then readLinuxString json (ascii "UTIL_Remove")
    else g.utilRemoveSig := by
  have hkept : ∀ ts : List OffsetTarget,
      (ts.foldl (tryApply json) g).utilRemoveSig = g.utilRemoveSig := by
    intro ts
    induction ts generalizing g with
    | nil => rfl
    | cons t ts ih => exact ih
  rw [loadGamedata]
  split
  · rfl
  · exact hkept offsetTargets

end Botid
