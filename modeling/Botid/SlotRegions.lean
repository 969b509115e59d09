import Botid.MarkedRegion

/-! The two regions of a slot that a window touches: its client object and its controller. -/
namespace Botid

open ByteMem

variable {m m' : Mem} {a : Nat} {v sid : UInt64}

theorem setFakePlayer_byte (m m' : Mem) (a : Nat) (h : m a = m' a) :
    setFakePlayer m a = setFakePlayer m' a := by
  rcases eq_or_ne a offFakePlayer with rfl | h₁
  · rw [setFakePlayer_fakePlayer, setFakePlayer_fakePlayer]
  · rcases eq_or_ne a offConnectionTypeFlags with rfl | h₂
    · simp [setFakePlayer, h₁, h]
    · rw [setFakePlayer_of_ne h₂ h₁, setFakePlayer_of_ne h₂ h₁, h]

theorem clearFakePlayer_byte (m m' : Mem) (a : Nat) (h : m a = m' a) :
    clearFakePlayer m a = clearFakePlayer m' a := by
  rcases eq_or_ne a offFakePlayer with rfl | h₁
  · rw [clearFakePlayer_fakePlayer, clearFakePlayer_fakePlayer]
  · rcases eq_or_ne a offConnectionTypeFlags with rfl | h₂
    · simp [clearFakePlayer, h₁, h]
    · rw [clearFakePlayer_of_ne h₂ h₁, clearFakePlayer_of_ne h₂ h₁, h]

/-- Two memories are the same when they agree on the flag bytes and everywhere else. -/
theorem flags_ext (hother : ∀ a, a ≠ offConnectionTypeFlags → a ≠ offFakePlayer → m a = m' a)
    (hflags : m offConnectionTypeFlags = m' offConnectionTypeFlags)
    (hfake : m offFakePlayer = m' offFakePlayer) : m = m' := by
  funext a
  rcases eq_or_ne a offConnectionTypeFlags with rfl | h₁
  · exact hflags
  · rcases eq_or_ne a offFakePlayer with rfl | h₂
    · exact hfake
    · exact hother a h₁ h₂

theorem setFakePlayer_flags : setFakePlayer m offConnectionTypeFlags =
    (m offConnectionTypeFlags &&& ~~~0x01) ||| 0x08 := by
  simp [setFakePlayer, offConnectionTypeFlags, offFakePlayer]

theorem clearFakePlayer_flags : clearFakePlayer m offConnectionTypeFlags =
    (m offConnectionTypeFlags &&& ~~~0x08) ||| 0x01 := by
  simp [clearFakePlayer, offConnectionTypeFlags, offFakePlayer]

theorem setFakePlayer_setFakePlayer (m : Mem) : setFakePlayer (setFakePlayer m) = setFakePlayer m := by
  apply flags_ext
  · exact fun a h₁ h₂ => setFakePlayer_of_ne h₁ h₂
  · rw [setFakePlayer_flags, setFakePlayer_flags]
    exact byte_induction (P := fun x => ((x &&& ~~~0x01 ||| 0x08) &&& ~~~0x01) ||| 0x08 =
      (x &&& ~~~0x01) ||| 0x08) (by decide +kernel) _
  · rw [setFakePlayer_fakePlayer, setFakePlayer_fakePlayer]

theorem clearFakePlayer_setFakePlayer (m : Mem) : clearFakePlayer (setFakePlayer m) = clearFakePlayer m := by
  apply flags_ext
  · intro a h₁ h₂
    rw [clearFakePlayer_of_ne h₁ h₂, setFakePlayer_of_ne h₁ h₂, clearFakePlayer_of_ne h₁ h₂]
  · rw [clearFakePlayer_flags, clearFakePlayer_flags, setFakePlayer_flags]
    exact byte_induction (P := fun x => ((x &&& ~~~0x01 ||| 0x08) &&& ~~~0x08) ||| 0x01 =
      (x &&& ~~~0x08) ||| 0x01) (by decide +kernel) _
  · rw [clearFakePlayer_fakePlayer, clearFakePlayer_fakePlayer]

theorem setFakePlayer_clearFakePlayer (m : Mem) : setFakePlayer (clearFakePlayer m) = setFakePlayer m := by
  apply flags_ext
  · intro a h₁ h₂
    rw [setFakePlayer_of_ne h₁ h₂, clearFakePlayer_of_ne h₁ h₂, setFakePlayer_of_ne h₁ h₂]
  · rw [setFakePlayer_flags, setFakePlayer_flags, clearFakePlayer_flags]
    exact byte_induction (P := fun x => ((x &&& ~~~0x08 ||| 0x01) &&& ~~~0x01) ||| 0x08 =
      (x &&& ~~~0x01) ||| 0x08) (by decide +kernel) _
  · rw [setFakePlayer_fakePlayer, setFakePlayer_fakePlayer]

theorem writeSteamId_field (v : UInt64) (m m' : Mem) (a : Nat)
    (ha : offSteamID ≤ a ∧ a < offSteamIDMirror + 8) : writeSteamId m v a = writeSteamId m' v a := by
  have hgap : offSteamIDMirror = offSteamID + 8 := rfl
  rw [writeSteamId, writeSteamId]
  by_cases hmirror : offSteamIDMirror ≤ a
  · rw [writeLE_in hmirror ha.2, writeLE_in hmirror ha.2]
  · have hlow : a < offSteamID + 8 := by omega
    rw [writeLE_out (Or.inl (by omega)), writeLE_in ha.1 hlow, writeLE_out (Or.inl (by omega)),
      writeLE_in ha.1 hlow]

theorem writeSteamId_zero_field (m : Mem) (a : Nat) (ha : offSteamID ≤ a ∧ a < offSteamIDMirror + 8) :
    writeSteamId m 0 a = 0 := by
  rw [writeSteamId_field 0 m (fun _ => 0) a ha, writeSteamId]
  simp [writeLE]

theorem setFakePlayer_out :
    ∀ (m : Mem) (a : Nat), ¬ (a = offConnectionTypeFlags ∨ a = offFakePlayer) → setFakePlayer m a = m a :=
  fun _ _ h => setFakePlayer_of_ne (fun ha => h (Or.inl ha)) fun ha => h (Or.inr ha)

theorem clearFakePlayer_out :
    ∀ (m : Mem) (a : Nat), ¬ (a = offConnectionTypeFlags ∨ a = offFakePlayer) → clearFakePlayer m a = m a :=
  fun _ _ h => clearFakePlayer_of_ne (fun ha => h (Or.inl ha)) fun ha => h (Or.inr ha)

theorem writeSteamId_outside : ∀ (v : UInt64) (m : Mem) (a : Nat),
    ¬ (offSteamID ≤ a ∧ a < offSteamIDMirror + 8) → writeSteamId m v a = m a :=
  fun _ _ _ h => writeSteamId_out (by omega)

theorem flags_apart_fields : ∀ a b : Nat, a = offConnectionTypeFlags ∨ a = offFakePlayer →
    offSteamID ≤ b ∧ b < offSteamIDMirror + 8 → a + 8 ≤ b ∨ b + 8 ≤ a := by
  simp only [offConnectionTypeFlags, offFakePlayer, offSteamID, offSteamIDMirror]
  omega

/-- The client: two flag bytes and the two SteamID fields. -/
def clientMarkers : Markers where
  Flag a := a = offConnectionTypeFlags ∨ a = offFakePlayer
  Field a := offSteamID ≤ a ∧ a < offSteamIDMirror + 8
  set := setFakePlayer
  clear := clearFakePlayer
  fill v m := writeSteamId m v
  set_out := setFakePlayer_out
  set_byte := setFakePlayer_byte
  set_set := setFakePlayer_setFakePlayer
  clear_out := clearFakePlayer_out
  clear_byte := clearFakePlayer_byte
  clear_set := clearFakePlayer_setFakePlayer
  set_clear := setFakePlayer_clearFakePlayer
  fill_out := writeSteamId_outside
  fill_field := writeSteamId_field
  fill_zero := writeSteamId_zero_field
  apart := flags_apart_fields

/-- The byte of the controller's flags that `kFakeClientBit` is in. -/
def offFakeClientByte : Nat := offControllerFakeClientFlags + 1

theorem toNat_controllerFlags : (controllerFlags m).toNat = readLE m offControllerFakeClientFlags 4 := by
  rw [controllerFlags, UInt32.toNat_ofNat']
  exact Nat.mod_eq_of_lt readLE_lt

/-- A flags word written back, where it differs from the one before in this byte only. -/
theorem writeFlags_apply {v : UInt32} {b : UInt8}
    (hv : ∀ k < 4, UInt8.ofNat (v.toNat / 2 ^ (8 * k)) =
      if k = 1 then b else m (offControllerFakeClientFlags + k)) :
    writeLE m offControllerFakeClientFlags 4 v.toNat a = if a = offFakeClientByte then b else m a := by
  by_cases ha : offControllerFakeClientFlags ≤ a ∧ a < offControllerFakeClientFlags + 4
  · obtain ⟨k, rfl⟩ := Nat.exists_eq_add_of_le ha.1
    have hpow : 256 ^ k = 2 ^ (8 * k) := by rw [pow_mul]; rfl
    rw [writeLE_in ha.1 ha.2, Nat.add_sub_cancel_left, hpow, hv k (by omega), offFakeClientByte]
    exact if_congr (by omega) rfl rfl
  · rw [writeLE_out (by omega), if_neg]
    rw [offFakeClientByte]
    omega

theorem byte_controllerFlags {k : Nat} (hk : k < 4) :
    UInt8.ofNat ((controllerFlags m).toNat / 2 ^ (8 * k)) = m (offControllerFakeClientFlags + k) := by
  have hpow : 2 ^ (8 * k) = 256 ^ k := by rw [pow_mul]; rfl
  rw [toNat_controllerFlags, hpow, ← byte_eq_of_readLE hk]

theorem setControllerFakeClientFlag_apply : setControllerFakeClientFlag m a =
    if a = offFakeClientByte then m a ||| 0x01 else m a := by
  rw [setControllerFakeClientFlag, @writeFlags_apply m a _ (m offFakeClientByte ||| 0x01)]
  · split
    · rename_i ha
      rw [ha]
    · rfl
  · intro k hk
    rw [UInt32.toNat_or, Nat.or_div_two_pow, UInt8.ofNat_or, byte_controllerFlags hk]
    rcases (by omega : k = 0 ∨ k = 1 ∨ k = 2 ∨ k = 3) with rfl | rfl | rfl | rfl
    · exact UInt8.or_zero
    · rfl
    · exact UInt8.or_zero
    · exact UInt8.or_zero

theorem clearControllerFakeClientFlag_apply : clearControllerFakeClientFlag m a =
    if a = offFakeClientByte then m a &&& ~~~0x01 else m a := by
  rw [clearControllerFakeClientFlag, @writeFlags_apply m a _ (m offFakeClientByte &&& ~~~0x01)]
  · split
    · rename_i ha
      rw [ha]
    · rfl
  · intro k hk
    rw [UInt32.toNat_and, Nat.and_div_two_pow, UInt8.ofNat_and, byte_controllerFlags hk]
    rcases (by omega : k = 0 ∨ k = 1 ∨ k = 2 ∨ k = 3) with rfl | rfl | rfl | rfl
    · exact UInt8.and_neg_one
    · rfl
    · exact UInt8.and_neg_one
    · exact UInt8.and_neg_one

theorem setControllerFakeClientFlag_out :
    ∀ (m : Mem) (a : Nat), ¬ a = offFakeClientByte → setControllerFakeClientFlag m a = m a :=
  fun _ _ h => by rw [setControllerFakeClientFlag_apply, if_neg h]

theorem setControllerFakeClientFlag_byte (m m' : Mem) (a : Nat) (h : m a = m' a) :
    setControllerFakeClientFlag m a = setControllerFakeClientFlag m' a := by
  rw [setControllerFakeClientFlag_apply, setControllerFakeClientFlag_apply, h]

theorem clearControllerFakeClientFlag_out :
    ∀ (m : Mem) (a : Nat), ¬ a = offFakeClientByte → clearControllerFakeClientFlag m a = m a :=
  fun _ _ h => by rw [clearControllerFakeClientFlag_apply, if_neg h]

theorem clearControllerFakeClientFlag_byte (m m' : Mem) (a : Nat) (h : m a = m' a) :
    clearControllerFakeClientFlag m a = clearControllerFakeClientFlag m' a := by
  rw [clearControllerFakeClientFlag_apply, clearControllerFakeClientFlag_apply, h]

theorem setControllerFakeClientFlag_set (m : Mem) :
    setControllerFakeClientFlag (setControllerFakeClientFlag m) = setControllerFakeClientFlag m := by
  funext a
  simp only [setControllerFakeClientFlag_apply]
  split
  · rw [UInt8.or_assoc, UInt8.or_self]
  · rfl

theorem clearControllerFakeClientFlag_set (m : Mem) :
    clearControllerFakeClientFlag (setControllerFakeClientFlag m) = clearControllerFakeClientFlag m := by
  funext a
  simp only [clearControllerFakeClientFlag_apply, setControllerFakeClientFlag_apply]
  split
  · exact byte_induction (P := fun x => (x ||| 0x01) &&& ~~~0x01 = x &&& ~~~0x01) (by decide +kernel) _
  · rfl

theorem setControllerFakeClientFlag_clear (m : Mem) :
    setControllerFakeClientFlag (clearControllerFakeClientFlag m) = setControllerFakeClientFlag m := by
  funext a
  simp only [clearControllerFakeClientFlag_apply, setControllerFakeClientFlag_apply]
  split
  · exact byte_induction (P := fun x => (x &&& ~~~0x01) ||| 0x01 = x ||| 0x01) (by decide +kernel) _
  · rfl

theorem fill_nothing : ∀ (_ : UInt64) (m : Mem) (a : Nat), ¬ False → m a = m a := fun _ _ _ _ => rfl

theorem no_field_fill : ∀ (_ : UInt64) (m m' : Mem) (a : Nat), False → m a = m' a :=
  fun _ _ _ _ h => h.elim

theorem no_field_zero : ∀ (m : Mem) (a : Nat), False → m a = 0 := fun _ _ h => h.elim

theorem no_field_apart : ∀ a b : Nat, a = offFakeClientByte → False → a + 8 ≤ b ∨ b + 8 ≤ a :=
  fun _ _ _ h => h.elim

/-- The controller: one byte of its flags, and no field. -/
def controllerMarkers : Markers where
  Flag a := a = offFakeClientByte
  Field _ := False
  set := setControllerFakeClientFlag
  clear := clearControllerFakeClientFlag
  fill _ m := m
  set_out := setControllerFakeClientFlag_out
  set_byte := setControllerFakeClientFlag_byte
  set_set := setControllerFakeClientFlag_set
  clear_out := clearControllerFakeClientFlag_out
  clear_byte := clearControllerFakeClientFlag_byte
  clear_set := clearControllerFakeClientFlag_set
  set_clear := setControllerFakeClientFlag_clear
  fill_out := fill_nothing
  fill_field := no_field_fill
  fill_zero := no_field_zero
  apart := no_field_apart

/-- A disguised client. -/
theorem atRest_client (hflags : m offConnectionTypeFlags &&& 0x09 = 0x01) (h : Disguised m sid) :
    clientMarkers.AtRest sid m := by
  obtain ⟨hfake, hid, hmirror⟩ := h
  constructor
  · apply flags_ext
    · exact fun a h₁ h₂ => clearFakePlayer_of_ne h₁ h₂
    · change clearFakePlayer m offConnectionTypeFlags = _
      rw [clearFakePlayer_flags]
      revert hflags
      exact byte_induction (P := fun x => x &&& 0x09 = 0x01 → x &&& ~~~0x08 ||| 0x01 = x)
        (by decide +kernel) _
    · exact (@clearFakePlayer_fakePlayer m).trans hfake.symm
  · funext a
    change writeSteamId m sid a = m a
    rw [writeSteamId, ← hmirror, writeLE_readLE, hmirror, ← hid, writeLE_readLE]
    split
    · rfl
    · split <;> rfl
  · rintro a (rfl | rfl)
    · change setFakePlayer m offConnectionTypeFlags ≠ _
      rw [setFakePlayer_flags]
      revert hflags
      exact byte_induction (P := fun x => x &&& 0x09 = 0x01 → x &&& ~~~0x01 ||| 0x08 ≠ x)
        (by decide +kernel) _
    · change setFakePlayer m offFakePlayer ≠ _
      rw [setFakePlayer_fakePlayer, hfake]
      decide

/-- A controller without FL_FAKECLIENT. -/
theorem atRest_controller (h : controllerFlags m &&& kFakeClientBit = 0) :
    controllerMarkers.AtRest sid m := by
  have hword : readLE m offControllerFakeClientFlags 4 &&& kFakeClientBit.toNat = 0 := by
    rw [← toNat_controllerFlags, ← UInt32.toNat_and, h]
    rfl
  have hbyte : m offFakeClientByte &&& 0x01 = 0 := by
    have hdiv : (readLE m offControllerFakeClientFlags 4 / 2 ^ 8) &&& (kFakeClientBit.toNat / 2 ^ 8) = 0 := by
      rw [← Nat.and_div_two_pow, hword]
    rw [offFakeClientByte, @byte_eq_of_readLE m offControllerFakeClientFlags 4 1 (by decide)]
    exact (UInt8.ofNat_and _ _).symm.trans (congrArg UInt8.ofNat hdiv)
  constructor
  · funext a
    change clearControllerFakeClientFlag m a = m a
    rw [clearControllerFakeClientFlag_apply]
    split
    · rename_i ha
      rw [← ha] at hbyte
      revert hbyte
      exact byte_induction (P := fun x => x &&& 0x01 = 0 → x &&& ~~~0x01 = x) (by decide +kernel) _
    · rfl
  · rfl
  · rintro a rfl
    change setControllerFakeClientFlag m offFakeClientByte ≠ _
    rw [setControllerFakeClientFlag_apply, if_pos rfl]
    revert hbyte
    exact byte_induction (P := fun x => x &&& 0x01 = 0 → x ||| 0x01 ≠ x) (by decide +kernel) _

end Botid
