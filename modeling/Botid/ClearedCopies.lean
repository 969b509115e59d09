import Botid.TransparentWindow

/-! What one application of the native markers leaves of a SteamID64, and what else it zeroes. -/
namespace Botid

open ByteMem World SlotView

/-- No window of the region holds the SteamID64. -/
def Cleared (sid : UInt64) (nbytes : Nat) (m : Mem) : Prop :=
  ∀ x, x + 8 ≤ nbytes → readLE m x 8 ≠ sid.toNat

/-- The byte lies in a window of the region that holds the SteamID64. -/
def InCopy (sid : UInt64) (nbytes : Nat) (m : Mem) (a : Nat) : Prop :=
  ∃ x, x + 8 ≤ nbytes ∧ readLE m x 8 = sid.toNat ∧ x ≤ a ∧ a < x + 8

/-- The native-marker fields of a client. -/
def ClientField (a : Nat) : Prop :=
  a = offConnectionTypeFlags ∨ a = offFakePlayer ∨ (offSteamID ≤ a ∧ a < offSteamIDMirror + 8)

/-- The flag word of a controller. -/
def ControllerField (a : Nat) : Prop :=
  offControllerFakeClientFlags ≤ a ∧ a < offControllerFakeClientFlags + 4

/-- The byte of a SteamID64 at a place, low end first. -/
def steamIdByte (sid : UInt64) (k : Nat) : UInt8 := UInt8.ofNat (sid.toNat / 256 ^ k)

namespace Markers

variable (K : Markers) (sid : UInt64) (nbytes : Nat)

/-- The bytes that the markers leave zero: the fields, and the copies the scan finds. -/
def Zeroed (m : Mem) (a : Nat) : Prop := K.Field a ∨ Covers (K.hits sid nbytes m) a

/-- A window that what is zeroed cuts into: the SteamID64 has zeros there, at its low end, at its high
end or at both, and the rest of it stands between them untouched. -/
def Remnant (m : Mem) (x : Nat) : Prop :=
  ∃ i j, 0 < i + j ∧ i + j < 8 ∧
    (∀ k < i, K.Zeroed sid nbytes m (x + k) ∧ steamIdByte sid k = 0) ∧
    (∀ k < 8, 8 ≤ k + j → K.Zeroed sid nbytes m (x + k) ∧ steamIdByte sid k = 0) ∧
    ∀ k, i ≤ k → k + j < 8 →
      ¬ K.Zeroed sid nbytes m (x + k) ∧ K.set m (x + k) = steamIdByte sid k

/-- Nothing of the SteamID64 is cut, and a copy that only the flags complete holds nothing else. -/
structure Separable (Named : Nat → Prop) (m : Mem) : Prop where
  uncut : ∀ x, x + 8 ≤ nbytes → ¬ K.Remnant sid nbytes m x
  genuine : ∀ h ∈ K.hits sid nbytes m, readLE m h 8 ≠ sid.toNat →
    ∀ a, h ≤ a → a < h + 8 → Named a ∨ m a = 0 ∨ InCopy sid nbytes m a

variable {K sid nbytes} {m : Mem} {a x : Nat} {Named : Nat → Prop}

theorem hold_zeroed (ha : K.Zeroed sid nbytes m a) : K.hold sid nbytes m a = 0 :=
  ha.elim hold_field hold_covered

theorem hold_untouched (ha : ¬ K.Zeroed sid nbytes m a) : K.hold sid nbytes m a = K.set m a :=
  hold_other (fun hf => ha (Or.inl hf)) fun hc => ha (Or.inr hc)

theorem zeroed_of_copy (hx : x + 8 ≤ nbytes) (hword : readLE (K.set m) x 8 = sid.toNat) :
    K.Zeroed sid nbytes m x := by
  obtain ⟨h, hh, hle, hlt⟩ := steamIdHits_complete hx hword
  exact Or.inr ⟨h, hh, hle, hlt⟩

theorem exists_steamIdByte_ne_zero (hsid : sid ≠ 0) : ∃ k < 8, steamIdByte sid k ≠ 0 := by
  by_contra hnone
  apply hsid
  apply UInt64.toNat_inj.mp
  have hzero : readLE (fun _ => 0) 0 8 = sid.toNat := by
    rw [readLE_eq_iff sid.toNat_lt]
    intro k hk
    by_contra hne
    exact hnone ⟨k, hk, fun h => hne h.symm⟩
  rw [← hzero]
  rfl

/-- Fields, like copies, come in stretches no shorter than a window. -/
def Wide (K : Markers) : Prop :=
  ∀ a, K.Field a → ∃ lo, lo ≤ a ∧ a < lo + 8 ∧ ∀ b, lo ≤ b → b < lo + 8 → K.Field b

/-- So what is zeroed of a window reaches one of its ends. -/
theorem zeroed_reaches (hwide : K.Wide) {k : Nat} (hz : K.Zeroed sid nbytes m (x + k)) :
    (∀ k' ≤ k, K.Zeroed sid nbytes m (x + k')) ∨
      ∀ k', k ≤ k' → k' < 8 → K.Zeroed sid nbytes m (x + k') := by
  have hstretch : ∃ lo, lo ≤ x + k ∧ x + k < lo + 8 ∧
      ∀ b, lo ≤ b → b < lo + 8 → K.Zeroed sid nbytes m b := by
    rcases hz with hf | ⟨h, hh, hlo, hhi⟩
    · obtain ⟨lo, hlo, hhi, hall⟩ := hwide _ hf
      exact ⟨lo, hlo, hhi, fun b h₁ h₂ => Or.inl (hall b h₁ h₂)⟩
    · exact ⟨h, hlo, hhi, fun b h₁ h₂ => Or.inr ⟨h, hh, h₁, h₂⟩⟩
  obtain ⟨lo, hlo, hhi, hall⟩ := hstretch
  by_cases hx : lo ≤ x
  · left
    intro k' hk'
    exact hall _ (by omega) (by omega)
  · right
    intro k' hk' hlt
    exact hall _ (by omega) (by omega)

/-- A copy that is there afterwards is a remnant. -/
theorem remnant_of_copy (hsid : sid ≠ 0) (hwide : K.Wide) (hx : x + 8 ≤ nbytes)
    (hword : readLE (K.hold sid nbytes m) x 8 = sid.toNat) : K.Remnant sid nbytes m x := by
  classical
  have hbyte : ∀ k < 8, K.hold sid nbytes m (x + k) = steamIdByte sid k :=
    (readLE_eq_iff sid.toNat_lt).mp hword
  have hnull : ∀ k < 8, K.Zeroed sid nbytes m (x + k) → steamIdByte sid k = 0 :=
    fun k hk hz => (hbyte k hk).symm.trans (hold_zeroed hz)
  obtain ⟨k₀, hk₀, hne⟩ := exists_steamIdByte_ne_zero hsid
  have hkept : ¬ K.Zeroed sid nbytes m (x + k₀) := fun hz => hne (hnull k₀ hk₀ hz)
  -- the first byte that is left, and the first zeroed one behind the byte that is not zero
  have hleft : ∃ i, ¬ K.Zeroed sid nbytes m (x + i) := ⟨k₀, hkept⟩
  have hright : ∃ l, k₀ < l ∧ (l = 8 ∨ K.Zeroed sid nbytes m (x + l)) := ⟨8, hk₀, Or.inl rfl⟩
  obtain ⟨hlt, hend⟩ := Nat.find_spec hright
  have hle₈ : Nat.find hright ≤ 8 := Nat.find_min' hright ⟨hk₀, Or.inl rfl⟩
  have hi₀ : Nat.find hleft ≤ k₀ := Nat.find_min' hleft hkept
  have hbefore : ∀ k < Nat.find hleft, K.Zeroed sid nbytes m (x + k) :=
    fun k hk => not_not.mp (Nat.find_min hleft hk)
  have hbehind : ∀ k < 8, Nat.find hright ≤ k → K.Zeroed sid nbytes m (x + k) := by
    intro k hk hlk
    rcases hend with h₈ | hz
    · omega
    · rcases zeroed_reaches hwide hz with hlow | hhigh
      · exact absurd (hlow k₀ hlt.le) hkept
      · exact hhigh k hlk hk
  have hmiddle : ∀ k, Nat.find hleft ≤ k → k < Nat.find hright → ¬ K.Zeroed sid nbytes m (x + k) := by
    intro k hik hkl hz
    rcases Nat.lt_or_ge k₀ k with hk | hk
    · exact Nat.find_min hright hkl ⟨hk, Or.inr hz⟩
    · rcases zeroed_reaches hwide hz with hlow | hhigh
      · exact Nat.find_spec hleft (hlow _ hik)
      · exact hkept (hhigh k₀ hk hk₀)
  refine ⟨Nat.find hleft, 8 - Nat.find hright, ?_, by omega, fun k hk => ?_, fun k hk hjk => ?_,
    fun k hik hjk => ?_⟩
  · -- a window that nothing cuts was a copy before the scan, which would have found it
    by_contra hzero
    have hwhole : readLE (K.set m) x 8 = sid.toNat := by
      rw [← hword]
      apply readLE_congr
      intro k hk
      exact (hold_untouched (hmiddle k (by omega) (by omega))).symm
    exact hmiddle 0 (by omega) (by omega) (zeroed_of_copy hx hwhole)
  · exact ⟨hbefore k hk, hnull k (by omega) (hbefore k hk)⟩
  · have hz := hbehind k hk (by omega)
    exact ⟨hz, hnull k hk hz⟩
  · have hkeep := hmiddle k hik (by omega)
    exact ⟨hkeep, (hold_untouched hkeep).symm.trans (hbyte k (by omega))⟩

theorem copy_of_remnant (h : K.Remnant sid nbytes m x) :
    readLE (K.hold sid nbytes m) x 8 = sid.toNat := by
  obtain ⟨i, j, -, -, hlow, hhigh, hmiddle⟩ := h
  rw [readLE_eq_iff sid.toNat_lt]
  intro k hk
  change _ = steamIdByte sid k
  rcases Nat.lt_or_ge k i with hki | hki
  · obtain ⟨hz, hb⟩ := hlow k hki
    rw [hold_zeroed hz, hb]
  · rcases Nat.lt_or_ge (k + j) 8 with hkj | hkj
    · obtain ⟨hkeep, hb⟩ := hmiddle k hki hkj
      rw [hold_untouched hkeep, hb]
    · obtain ⟨hz, hb⟩ := hhigh k hk hkj
      rw [hold_zeroed hz, hb]

theorem cleared_hold_iff (hsid : sid ≠ 0) (hwide : K.Wide) :
    Cleared sid nbytes (K.hold sid nbytes m) ↔ ∀ x, x + 8 ≤ nbytes → ¬ K.Remnant sid nbytes m x := by
  constructor
  · intro h x hx hr
    exact h x hx (copy_of_remnant hr)
  · intro h x hx hword
    exact h x hx (remnant_of_copy hsid hwide hx hword)

/-- A SteamID64 that is zero at neither end leaves no remnant. -/
theorem not_remnant (hlow : steamIdByte sid 0 ≠ 0) (hhigh : steamIdByte sid 7 ≠ 0) :
    ¬ K.Remnant sid nbytes m x := by
  rintro ⟨i, j, hpos, -, hi, hj, -⟩
  rcases Nat.eq_zero_or_pos i with rfl | h
  · exact hhigh (hj 7 (by decide) (by omega)).2
  · exact hlow (hi 0 h).2

/-- Nothing is spoilt of a SteamID64 that is zero at neither end where one of its bytes stands in copies
only. -/
theorem separable_of_rare_byte {k : Nat} (hlow : steamIdByte sid 0 ≠ 0) (hhigh : steamIdByte sid 7 ≠ 0)
    (hk : k < 8) (hrare : ∀ h, K.set m (h + k) = steamIdByte sid k → readLE m h 8 = sid.toNat) :
    K.Separable sid nbytes Named m := by
  refine ⟨fun _ _ => not_remnant hlow hhigh, fun h hh hne => ?_⟩
  exact absurd (hrare h (byte_of_hit hk hh)) hne

/-- What changes besides the fields and the copies there were belongs to copies the flags completed. -/
theorem changed_hold_iff (hflag : ∀ a, K.Flag a → Named a) (hfield : ∀ a, K.Field a → Named a) :
    (∀ a, K.hold sid nbytes m a ≠ m a → InCopy sid nbytes m a ∨ Named a) ↔
      ∀ h ∈ K.hits sid nbytes m, readLE m h 8 ≠ sid.toNat →
        ∀ a, h ≤ a → a < h + 8 → Named a ∨ m a = 0 ∨ InCopy sid nbytes m a := by
  constructor
  · intro hall h hh _ a hlo hhi
    by_cases hzero : m a = 0
    · exact Or.inr (Or.inl hzero)
    · have hchanged : K.hold sid nbytes m a ≠ m a := by
        rw [hold_covered ⟨h, hh, hlo, hhi⟩]
        exact fun h => hzero h.symm
      rcases hall a hchanged with hcopy | hnamed
      · exact Or.inr (Or.inr hcopy)
      · exact Or.inl hnamed
  · intro hall a hchanged
    by_cases hf : K.Field a
    · exact Or.inr (hfield a hf)
    · by_cases hc : Covers (K.hits sid nbytes m) a
      · obtain ⟨h, hh, hlo, hhi⟩ := hc
        by_cases hword : readLE m h 8 = sid.toNat
        · exact Or.inl ⟨h, (steamIdHits_spec hh).1, hword, hlo, hhi⟩
        · rcases hall h hh hword a hlo hhi with hnamed | hzero | hcopy
          · exact Or.inr hnamed
          · rw [hold_covered ⟨h, hh, hlo, hhi⟩, hzero] at hchanged
            exact absurd rfl hchanged
          · exact Or.inl hcopy
      · rw [hold_other hf hc] at hchanged
        by_contra hnot
        exact hchanged (K.set_out m a fun hflag' => hnot (Or.inr (hflag a hflag')))

end Markers

variable {w : World} {snapshot : VoteSlotSnapshot} {client p : Ptr} {controller : Option Ptr} {sid : UInt64}
  {a : Nat} {m : Mem}

theorem wide_client : clientMarkers.Wide := by
  intro a ha
  rcases Nat.lt_or_ge a offSteamIDMirror with hlt | hge
  · refine ⟨offSteamID, ha.1, hlt, fun b hlo hhi => ⟨hlo, ?_⟩⟩
    simp only [offSteamID, offSteamIDMirror] at hhi ⊢
    omega
  · refine ⟨offSteamIDMirror, hge, ha.2, fun b hlo hhi => ⟨?_, hhi⟩⟩
    simp only [offSteamID, offSteamIDMirror] at hlo ⊢
    omega

theorem wide_controller : controllerMarkers.Wide := fun _ ha => ha.elim

/-- What a call of `ApplyNativeVoteMarkers` should leave of the SteamID64 in the regions it scans, and
what it may change. -/
structure LeavesNoCopy (sid : UInt64) (client : Ptr) (controller : Option Ptr) (w w' : World) : Prop where
  client_cleared : Cleared sid kSscScanBytes (w'.client client)
  controller_cleared : ∀ c, controller = some c → Cleared sid kControllerScanBytes (w'.controller c)
  client_changed : ∀ p a, w'.client p a ≠ w.client p a →
    p = client ∧ (InCopy sid kSscScanBytes (w.client client) a ∨ ClientField a)
  controller_changed : ∀ c a, w'.controller c a ≠ w.controller c a →
    controller = some c ∧ (InCopy sid kControllerScanBytes (w.controller c) a ∨ ControllerField a)

theorem client_marked (hsid : snapshot.sscSteamId ≠ 0) :
    (applyNativeVoteMarkers w snapshot client controller).2.client client =
      clientMarkers.hold snapshot.sscSteamId kSscScanBytes (w.client client) := by
  rw [client_applyNativeVoteMarkers, if_neg hsid, writeSteamId_scanRegion]

theorem controller_marked {c : Ptr} (hsid : snapshot.sscSteamId ≠ 0) :
    (applyNativeVoteMarkers w snapshot client controller).2.controller c =
      if controller = some c then
        controllerMarkers.hold snapshot.sscSteamId kControllerScanBytes (w.controller c)
      else w.controller c := by
  have hc : ∀ c, controller = some c → w.controller c = controller.elim (fun _ => 0) w.controller := by
    rintro c rfl
    rfl
  obtain ⟨-, -, hcontroller⟩ := @view_applyNativeVoteMarkers w client controller snapshot
    ⟨w.client client, controller.elim (fun _ => 0) w.controller, snapshot.copies⟩ _ _ rfl hsid rfl rfl rfl hc
  rw [hcontroller c]
  split
  · rename_i h
    subst h
    rw [controller_applyMarkers, Option.isSome_some, if_pos rfl, Option.elim_some]
  · rfl

theorem client_marked_of_ne (hp : p ≠ client) :
    (applyNativeVoteMarkers w snapshot client controller).2.client p = w.client p :=
  (onlyClient_applyNativeVoteMarkers _ _ _ _).2 p hp

/-- The condition under which a call leaves no copy behind and zeroes nothing else. -/
def CopiesSeparable (sid : UInt64) (client : Ptr) (controller : Option Ptr) (w : World) : Prop :=
  clientMarkers.Separable sid kSscScanBytes ClientField (w.client client) ∧
    ∀ c, controller = some c →
      controllerMarkers.Separable sid kControllerScanBytes ControllerField (w.controller c)

/-- `ApplyNativeVoteMarkers` leaves no copy behind, and changes nothing but copies and marker fields,
exactly where what it zeroes cuts into no window that then shows the SteamID64, and where the flags it
sets complete no copy around anything else. -/
theorem no_copy_left_iff (hsid : snapshot.sscSteamId ≠ 0) :
    LeavesNoCopy snapshot.sscSteamId client controller w
        (applyNativeVoteMarkers w snapshot client controller).2 ↔
      CopiesSeparable snapshot.sscSteamId client controller w := by
  have hflag : ∀ a, clientMarkers.Flag a → ClientField a := by
    rintro a (h | h)
    · exact Or.inl h
    · exact Or.inr (Or.inl h)
  have hfield : ∀ a, clientMarkers.Field a → ClientField a := fun a h => Or.inr (Or.inr h)
  have hflag' : ∀ a, controllerMarkers.Flag a → ControllerField a := by
    rintro a rfl
    exact ⟨by decide, by decide⟩
  have hfield' : ∀ a, controllerMarkers.Field a → ControllerField a := fun _ h => h.elim
  constructor
  · rintro ⟨hclear, hclear', hchange, hchange'⟩
    rw [client_marked hsid] at hclear
    refine ⟨⟨(Markers.cleared_hold_iff hsid wide_client).mp hclear,
      (Markers.changed_hold_iff hflag hfield).mp fun a ha => (hchange client a ?_).2⟩, fun c hc => ?_⟩
    · rwa [client_marked hsid]
    · have hregion := hclear' c hc
      rw [controller_marked hsid, if_pos hc] at hregion
      refine ⟨(Markers.cleared_hold_iff hsid wide_controller).mp hregion,
        (Markers.changed_hold_iff hflag' hfield').mp fun a ha => (hchange' c a ?_).2⟩
      rwa [controller_marked hsid, if_pos hc]
  · rintro ⟨⟨huncut, hgenuine⟩, hcontroller⟩
    constructor
    · rw [client_marked hsid]
      exact (Markers.cleared_hold_iff hsid wide_client).mpr huncut
    · intro c hc
      rw [controller_marked hsid, if_pos hc]
      exact (Markers.cleared_hold_iff hsid wide_controller).mpr (hcontroller c hc).uncut
    · intro p a ha
      by_cases hp : p = client
      · subst hp
        rw [client_marked hsid] at ha
        exact ⟨rfl, (Markers.changed_hold_iff hflag hfield).mpr hgenuine a ha⟩
      · rw [client_marked_of_ne hp] at ha
        exact absurd rfl ha
    · intro c a ha
      rw [controller_marked hsid] at ha
      split at ha
      · rename_i hc
        exact ⟨hc, (Markers.changed_hold_iff hflag' hfield').mpr (hcontroller c hc).genuine a ha⟩
      · exact absurd rfl ha

theorem no_copy_left_of_two_fields :
    LeavesNoCopy (takeSnapshot (botWithCopies 2).world 0 100).sscSteamId 100 (some 900)
      (botWithCopies 2).world
      (applyNativeVoteMarkers (botWithCopies 2).world (takeSnapshot (botWithCopies 2).world 0 100) 100
        (some 900)).2 := by
  have hsid : (takeSnapshot (botWithCopies 2).world 0 100).sscSteamId = 76561197960265729 := by
    rw [sscSteamId_takeSnapshot]
    exact congrArg UInt64.ofNat (readLE_clientWithCopies (n := 2) (j := 0) (by decide))
  have hne : (takeSnapshot (botWithCopies 2).world 0 100).sscSteamId ≠ 0 := by
    rw [hsid]
    decide
  refine (no_copy_left_iff hne).mpr ?_
  rw [hsid]
  refine ⟨Markers.separable_of_rare_byte (k := 6) (by decide) (by decide) (by decide) ?_, ?_⟩
  · intro h hbyte
    rcases rare_clientWithCopies (h + 6) hbyte with hoff | hoff
    · obtain rfl : h = offSteamID + 8 * 0 := by omega
      exact readLE_clientWithCopies (by decide)
    · obtain rfl : h = offSteamID + 8 * 1 := by simp only [offSteamID, offSteamIDMirror] at hoff ⊢; omega
      exact readLE_clientWithCopies (by decide)
  · intro c _
    refine Markers.separable_of_rare_byte (k := 6) (by decide) (by decide) (by decide) ?_
    exact fun h hbyte => absurd hbyte (no_rare_byte (h + 6))

/-- A client under a SteamID64 whose low byte is zero, with the other seven bytes behind its fields. -/
def clientWithTail : Mem :=
  writeBytes (writeSteamId (fun a => if a = offConnectionTypeFlags then 1 else 0) 76561197960265984)
    (offSteamIDMirror + 8) [1, 0, 0, 1, 0, 0x10, 1]

/-- Zeroing the mirror field gives the seven bytes behind it the zero that makes them a copy. -/
theorem copy_left_behind_mirror :
    let w := (World.ofClients [100] nodup_solo).onClient 100 fun _ => clientWithTail
    Disguised (w.client 100) 76561197960265984 ∧ (takeSnapshot w 0 100).sscSteamId ≠ 0 ∧
      ¬ LeavesNoCopy (takeSnapshot w 0 100).sscSteamId 100 none w
        (applyNativeVoteMarkers w (takeSnapshot w 0 100) 100 none).2 := by
  intro w
  have hsid : (takeSnapshot w 0 100).sscSteamId = 76561197960265984 := by
    rw [sscSteamId_takeSnapshot]
    decide +kernel
  have hne : (takeSnapshot w 0 100).sscSteamId ≠ 0 := by
    rw [hsid]
    decide
  refine ⟨by decide +kernel, hne, fun h => ?_⟩
  have hclear := h.client_cleared
  rw [client_marked hne, hsid] at hclear
  exact hclear (offSteamIDMirror + 7) (by decide) (by decide +kernel)

end Botid
