import Botid.ByteMem
import Mathlib.Logic.Function.Basic

/-! `ssc_ops`: the raw field accesses on `CServerSideClient` and controller objects. -/
namespace Botid

open ByteMem

def offConnectionTypeFlags : Nat := 96
def offFakePlayer : Nat := 160
def offUserID : Nat := 168
def offSteamID : Nat := 171
def offSteamIDMirror : Nat := 179
def offEntityIndex : Nat := 76
def offNetChannel : Nat := 88
def offSignonState : Nat := 100
def offControllerTeamNum : Nat := 1572
def offControllerFakeClientFlags : Nat := 904
def offControllerSteamID : Nat := 1800

def kFakeClientBit : UInt32 := 0x100

/-- A 32-bit word read as `int`. -/
def toInt32 (n : Nat) : Int := if n < 2 ^ 31 then n else (n : Int) - 2 ^ 32

def clearFakePlayer (m : Mem) : Mem :=
  Function.update
    (Function.update m offConnectionTypeFlags ((m offConnectionTypeFlags &&& ~~~0x08) ||| 0x01))
    offFakePlayer 0

def setFakePlayer (m : Mem) : Mem :=
  Function.update
    (Function.update m offConnectionTypeFlags ((m offConnectionTypeFlags &&& ~~~0x01) ||| 0x08))
    offFakePlayer 1

def writeSteamId (m : Mem) (steamId : UInt64) : Mem :=
  writeLE (writeLE m offSteamID 8 steamId.toNat) offSteamIDMirror 8 steamId.toNat

def readSteamId (m : Mem) : UInt64 := UInt64.ofNat (readLE m offSteamID 8)

def getEntityIndex (m : Mem) : Int := toInt32 (readLE m offEntityIndex 4)

def readUserId (m : Mem) : UInt16 := UInt16.ofNat (readLE m offUserID 2)

def writeUserId (m : Mem) (userId : UInt16) : Mem := writeLE m offUserID 2 userId.toNat

def readSignonState (m : Mem) : Int := toInt32 (readLE m offSignonState 4)

/-- The `INetChannel*` word, `0` for a null pointer. -/
def readNetChannel (m : Mem) : Nat := readLE m offNetChannel 8

def readControllerTeam (m : Mem) : UInt8 := UInt8.ofNat (readLE m offControllerTeamNum 4)

def writeControllerTeam (m : Mem) (team : UInt8) : Mem :=
  writeLE m offControllerTeamNum 4 team.toNat

def controllerFlags (m : Mem) : UInt32 := UInt32.ofNat (readLE m offControllerFakeClientFlags 4)

def clearControllerFakeClientFlag (m : Mem) : Mem :=
  writeLE m offControllerFakeClientFlags 4 (controllerFlags m &&& ~~~kFakeClientBit).toNat

def setControllerFakeClientFlag (m : Mem) : Mem :=
  writeLE m offControllerFakeClientFlags 4 (controllerFlags m ||| kFakeClientBit).toNat

def readControllerSteamId (m : Mem) : UInt64 := UInt64.ofNat (readLE m offControllerSteamID 8)

/-- The bytes of `m_bFakePlayer` and of the two SteamID fields. -/
def Marker (a : Nat) : Prop :=
  a = offFakePlayer ∨ (offSteamID ≤ a ∧ a < offSteamIDMirror + 8)

/-- Valve's native bot markers. -/
def Native (m : Mem) : Prop :=
  m offFakePlayer = 1 ∧ readLE m offSteamID 8 = 0 ∧ readLE m offSteamIDMirror 8 = 0

/-- The player disguise under a SteamID64. -/
def Disguised (m : Mem) (steamId : UInt64) : Prop :=
  m offFakePlayer = 0 ∧ readLE m offSteamID 8 = steamId.toNat ∧
    readLE m offSteamIDMirror 8 = steamId.toNat

instance (m : Mem) : Decidable (Native m) := inferInstanceAs (Decidable (_ ∧ _ ∧ _))

instance (m : Mem) (steamId : UInt64) : Decidable (Disguised m steamId) :=
  inferInstanceAs (Decidable (_ ∧ _ ∧ _))

variable {m m' : Mem} {a : Nat} {sid : UInt64} {uid : UInt16}

theorem getEntityIndex_congr {m m' : Mem} (h : ∀ k < 4, m (offEntityIndex + k) = m' (offEntityIndex + k)) :
    getEntityIndex m = getEntityIndex m' := by
  rw [getEntityIndex, getEntityIndex, readLE_congr h]

/-- The three fields depend on the marker bytes only. -/
theorem marker_fields (h : ∀ a, Marker a → m' a = m a) :
    m' offFakePlayer = m offFakePlayer ∧ readLE m' offSteamID 8 = readLE m offSteamID 8 ∧
      readLE m' offSteamIDMirror 8 = readLE m offSteamIDMirror 8 := by
  refine ⟨h _ (Or.inl rfl), readLE_congr ?_, readLE_congr ?_⟩
  · intro k hk
    exact h _ (Or.inr (by simp only [offSteamID, offSteamIDMirror]; omega))
  · intro k hk
    exact h _ (Or.inr (by simp only [offSteamID, offSteamIDMirror]; omega))

theorem native_congr (h : ∀ a, Marker a → m' a = m a) : Native m' ↔ Native m := by
  obtain ⟨h1, h2, h3⟩ := marker_fields h
  rw [Native, Native, h1, h2, h3]

theorem disguised_congr (h : ∀ a, Marker a → m' a = m a) : Disguised m' sid ↔ Disguised m sid := by
  obtain ⟨h1, h2, h3⟩ := marker_fields h
  rw [Disguised, Disguised, h1, h2, h3]

@[simp] theorem clearFakePlayer_fakePlayer : clearFakePlayer m offFakePlayer = 0 := by
  simp [clearFakePlayer]

@[simp] theorem setFakePlayer_fakePlayer : setFakePlayer m offFakePlayer = 1 := by
  simp [setFakePlayer]

theorem clearFakePlayer_of_ne (h1 : a ≠ offConnectionTypeFlags) (h2 : a ≠ offFakePlayer) :
    clearFakePlayer m a = m a := by
  simp [clearFakePlayer, h1, h2]

theorem setFakePlayer_of_ne (h1 : a ≠ offConnectionTypeFlags) (h2 : a ≠ offFakePlayer) :
    setFakePlayer m a = m a := by
  simp [setFakePlayer, h1, h2]

theorem writeSteamId_out (h : a < offSteamID ∨ offSteamIDMirror + 8 ≤ a) :
    writeSteamId m sid a = m a := by
  simp only [offSteamID, offSteamIDMirror] at h
  rw [writeSteamId, writeLE_out (by simp only [offSteamIDMirror]; omega),
    writeLE_out (by simp only [offSteamID]; omega)]

theorem readLE_writeSteamId :
    readLE (writeSteamId m sid) offSteamID 8 = sid.toNat ∧
      readLE (writeSteamId m sid) offSteamIDMirror 8 = sid.toNat := by
  have hlt : sid.toNat < 256 ^ 8 := sid.toNat_lt
  constructor
  · rw [writeSteamId, readLE_writeLE_of_disjoint (by decide), readLE_writeLE hlt]
  · rw [writeSteamId, readLE_writeLE hlt]

theorem disguised_writeSteamId_clearFakePlayer : Disguised (writeSteamId (clearFakePlayer m) sid) sid := by
  refine ⟨?_, readLE_writeSteamId⟩
  rw [writeSteamId_out (by decide), clearFakePlayer_fakePlayer]

theorem writeUserId_marker (h : Marker a) : writeUserId m uid a = m a := by
  apply writeLE_out
  simp only [Marker, offFakePlayer, offSteamID, offSteamIDMirror, offUserID] at h ⊢
  omega

theorem readSteamId_eq_of_disguised (h : Disguised m sid) : readSteamId m = sid := by
  rw [readSteamId, h.2.1, UInt64.ofNat_toNat]

theorem controllerFlags_clear :
    controllerFlags (clearControllerFakeClientFlag m) &&& kFakeClientBit = 0 := by
  have hlt : (controllerFlags m &&& ~~~kFakeClientBit).toNat < 256 ^ 4 := UInt32.toNat_lt _
  rw [controllerFlags, clearControllerFakeClientFlag, readLE_writeLE hlt, UInt32.ofNat_toNat,
    UInt32.and_assoc, UInt32.not_and_self, UInt32.and_zero]

end Botid
