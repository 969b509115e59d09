import Botid.CopyTable
import Mathlib.Logic.Function.Iterate

/-! A region under a window: flags set, fields and copies blanked, and what of it can be undone. -/
namespace Botid

open ByteMem

/-- What a window writes to a region besides zeroing copies: flags it sets and clears, and fields it
fills with a SteamID64. -/
structure Markers where
  Flag : Nat → Prop
  Field : Nat → Prop
  set : Mem → Mem
  clear : Mem → Mem
  fill : UInt64 → Mem → Mem
  set_out : ∀ m a, ¬ Flag a → set m a = m a
  set_byte : ∀ m m' a, m a = m' a → set m a = set m' a
  set_set : ∀ m, set (set m) = set m
  clear_out : ∀ m a, ¬ Flag a → clear m a = m a
  clear_byte : ∀ m m' a, m a = m' a → clear m a = clear m' a
  clear_set : ∀ m, clear (set m) = clear m
  set_clear : ∀ m, set (clear m) = set m
  fill_out : ∀ v m a, ¬ Field a → fill v m a = m a
  fill_field : ∀ v m m' a, Field a → fill v m a = fill v m' a
  fill_zero : ∀ m a, Field a → fill 0 m a = 0
  apart : ∀ a b, Flag a → Field b → a + 8 ≤ b ∨ b + 8 ≤ a

def blank (hits : List Nat) (m : Mem) : Mem := fun a => if Covers hits a then 0 else m a

namespace Markers

variable (K : Markers) (sid : UInt64) (nbytes : Nat)

/-- What the scan finds once the flags are set. -/
def hits (m : Mem) : List Nat := steamIdHits sid nbytes (K.set m)

/-- One application of the native markers. -/
def hold (m : Mem) : Mem := K.fill 0 (blank (K.hits sid nbytes m) (K.set m))

/-- The end of the window: flags cleared, fields filled, and what was kept laid over it. -/
def release (kept : List Nat) (M m : Mem) : Mem := overlay kept M (K.fill sid (K.clear m))

/-- The region outside a window. -/
structure AtRest (m : Mem) : Prop where
  clear : K.clear m = m
  fill : K.fill sid m = m
  set : ∀ a, K.Flag a → K.set m a ≠ m a

/-- A byte that comes back without having been kept. -/
def Harmless (m : Mem) (a : Nat) : Prop := K.Field a ∨ K.clear (fun _ => 0) a = m a

/-- The copies that were kept cover no flag, those that were not cover only harmless bytes, and once
all are blanked another scan finds nothing that it could spoil. -/
structure Recoverable (m : Mem) (kept lost : List Nat) : Prop where
  flags : ∀ a, K.Flag a → ¬ Covers kept a
  lost : ∀ a, Covers lost a → K.Harmless m a
  again : ∀ a, Covers (K.hits sid nbytes (K.hold sid nbytes m)) a → K.Harmless m a ∨ Covers kept a

variable {K sid nbytes} {m x y M : Mem} {a b h : Nat} {kept lost new : List Nat}

theorem lt_of_covers_hits (ha : Covers (K.hits sid nbytes m) a) : a < nbytes := by
  obtain ⟨h, hh, hlo, hhi⟩ := ha
  have := (steamIdHits_spec hh).1
  omega

theorem not_flag_of_field (hb : K.Field b) : ¬ K.Flag b := by
  intro hf
  have := K.apart b b hf hb
  omega

theorem hold_field (ha : K.Field a) : K.hold sid nbytes m a = 0 := K.fill_zero _ a ha

theorem hold_covered (ha : Covers (K.hits sid nbytes m) a) : K.hold sid nbytes m a = 0 := by
  by_cases hf : K.Field a
  · exact hold_field hf
  · rw [hold, K.fill_out _ _ a hf, blank, if_pos ha]

theorem hold_other (hf : ¬ K.Field a) (ha : ¬ Covers (K.hits sid nbytes m) a) :
    K.hold sid nbytes m a = K.set m a := by
  rw [hold, K.fill_out _ _ a hf, blank, if_neg ha]

/-- The flags are set before anything is looked at. -/
theorem hold_congr (h : K.set x = K.set y) : K.hold sid nbytes x = K.hold sid nbytes y := by
  rw [hold, hold, hits, hits, h]

theorem clear_congr (h : K.set x = K.set y) : K.clear x = K.clear y := by
  rw [← K.clear_set x, h, K.clear_set]

/-- What the end of the window makes of a byte that was not kept. -/
theorem release_other (hm : K.AtRest sid m) (ha : ¬ Covers kept a) (hx : K.Field a ∨ K.clear x a = m a) :
    K.release sid kept M x a = m a := by
  rw [release, overlay, if_neg ha]
  by_cases hf : K.Field a
  · rw [K.fill_field sid _ m a hf, hm.fill]
  · rw [K.fill_out _ _ a hf]
    exact hx.resolve_left hf

/-- A byte that is zero when the window ends, and not kept, comes back only if it is harmless. -/
theorem harmless_of_release (ha : ¬ Covers kept a) (hx : x a = 0)
    (h : K.release sid kept M x a = m a) : K.Harmless m a := by
  by_cases hf : K.Field a
  · exact Or.inl hf
  · rw [release, overlay, if_neg ha, K.fill_out _ _ a hf, K.clear_byte x (fun _ => 0) a hx] at h
    exact Or.inr h

theorem not_covers_kept (hsplit : K.hits sid nbytes m = kept ++ lost) (ha : Covers lost a) :
    ¬ Covers kept a := by
  rintro ⟨h, hh, hlo, hhi⟩
  obtain ⟨h', hh', hlo', hhi'⟩ := ha
  have hpair : (K.hits sid nbytes m).Pairwise fun h h' => h + 8 ≤ h' := pairwise_hitsFrom
  rw [hsplit] at hpair
  have := (List.pairwise_append.mp hpair).2.2 h hh h' hh'
  omega

theorem covers_hits (hsplit : K.hits sid nbytes m = kept ++ lost) :
    Covers (K.hits sid nbytes m) a ↔ Covers kept a ∨ Covers lost a := by
  rw [hsplit, covers_append]

/-- A window without hold ticks is undone exactly where nothing but harmless bytes is lost. -/
theorem release_hold_iff (hm : K.AtRest sid m) (hsplit : K.hits sid nbytes m = kept ++ lost) :
    (∀ a < nbytes, K.release sid kept (K.set m) (K.hold sid nbytes m) a = m a) ↔
      (∀ a, K.Flag a → ¬ Covers kept a) ∧ ∀ a, Covers lost a → K.Harmless m a := by
  constructor
  · intro h
    refine ⟨fun a hf hc => ?_, fun a hc => ?_⟩
    · have hlt : a < nbytes := lt_of_covers_hits ((covers_hits hsplit).mpr (Or.inl hc))
      have hbyte := h a hlt
      rw [release, overlay, if_pos hc] at hbyte
      exact hm.set a hf hbyte
    · have hcovered := (covers_hits hsplit).mpr (Or.inr hc)
      exact harmless_of_release (not_covers_kept hsplit hc) (hold_covered hcovered)
        (h a (lt_of_covers_hits hcovered))
  · rintro ⟨hflags, hlost⟩ a -
    by_cases hc : Covers kept a
    · rw [release, overlay, if_pos hc]
      exact K.set_out m a fun hf => hflags a hf hc
    · refine release_other hm hc ?_
      by_cases hcovered : Covers (K.hits sid nbytes m) a
      · have hharmless := hlost a (((covers_hits hsplit).mp hcovered).resolve_left hc)
        rwa [Harmless, ← K.clear_byte _ _ a (hold_covered hcovered)] at hharmless
      · by_cases hf : K.Field a
        · exact Or.inl hf
        · refine Or.inr ?_
          rw [K.clear_byte _ _ a (hold_other hf hcovered), K.clear_set, hm.clear]

/-- Where nothing more is spoilt, a hold tick changes nothing that setting the flags does not redo. -/
theorem set_hold_hold (h : K.Recoverable sid nbytes m kept lost)
    (hsplit : K.hits sid nbytes m = kept ++ lost) :
    K.set (K.hold sid nbytes (K.hold sid nbytes m)) = K.set (K.hold sid nbytes m) := by
  funext a
  by_cases hc : Covers (K.hits sid nbytes (K.hold sid nbytes m)) a
  · have hzero := @hold_covered K sid nbytes _ a hc
    by_cases hx : K.hold sid nbytes m a = 0
    · exact K.set_byte _ _ a (hzero.trans hx.symm)
    · -- the byte was neither a field nor a copy, so that the scan spoils it unless it is a flag
      have hf : ¬ K.Field a := fun hf => hx (hold_field hf)
      have hcovered : ¬ Covers (K.hits sid nbytes m) a := fun hc => hx (hold_covered hc)
      have hkept : ¬ Covers kept a := fun hk => hcovered ((covers_hits hsplit).mpr (Or.inl hk))
      have hclear := (((h.again a hc).resolve_right hkept).resolve_left hf)
      by_cases hflag : K.Flag a
      · rw [K.set_byte _ (fun _ => 0) a hzero, K.set_byte _ _ a (hold_other hf hcovered), K.set_set,
          ← K.set_byte _ _ a hclear, K.set_clear]
      · rw [K.clear_out _ a hflag] at hclear
        rw [hold_other hf hcovered, K.set_out m a hflag] at hx
        exact absurd hclear.symm hx
  · by_cases hf : K.Field a
    · exact K.set_byte _ _ a ((hold_field hf).trans (hold_field hf).symm)
    · rw [K.set_byte _ _ a (hold_other hf hc), K.set_set]

/-- A later hit that overlaps no earlier one takes in a byte of a field. -/
theorem field_of_fresh_hit (hh : h ∈ K.hits sid nbytes (K.hold sid nbytes m))
    (hfresh : ∀ h' ∈ K.hits sid nbytes m, ¬ (h' < h + 8 ∧ h < h' + 8)) :
    ∃ b, h ≤ b ∧ b < h + 8 ∧ K.Field b ∧ m b ≠ 0 := by
  by_contra hnone
  obtain ⟨hle, hword⟩ := steamIdHits_spec hh
  have hsame : readLE (K.set m) h 8 = readLE (K.set (K.hold sid nbytes m)) h 8 := by
    apply readLE_congr
    intro k hk
    have hc : ¬ Covers (K.hits sid nbytes m) (h + k) := by
      rintro ⟨h', hh', hlo, hhi⟩
      exact hfresh h' hh' (by omega)
    by_cases hf : K.Field (h + k)
    · have hzero : m (h + k) = 0 := by
        by_contra hne
        exact hnone ⟨h + k, by omega, by omega, hf, hne⟩
      exact K.set_byte _ _ _ (hzero.trans (hold_field hf).symm)
    · rw [K.set_byte _ _ _ (hold_other hf hc), K.set_set]
  obtain ⟨h', hh', hlo, hhi⟩ := steamIdHits_complete hle (hsame.trans hword)
  exact hfresh h' hh' (by omega)

/-- Where nothing is lost and nothing more is spoilt, every later hit overlaps a kept copy. -/
theorem overlaps_kept (hsid : sid ≠ 0) (hr : K.Recoverable sid nbytes m (K.hits sid nbytes m) [])
    (hh : h ∈ K.hits sid nbytes (K.hold sid nbytes m)) :
    ∃ h' ∈ K.hits sid nbytes m, h' < h + 8 ∧ h < h' + 8 := by
  by_contra hnone
  have hfresh : ∀ h' ∈ K.hits sid nbytes m, ¬ (h' < h + 8 ∧ h < h' + 8) :=
    fun h' hh' hover => hnone ⟨h', hh', hover⟩
  obtain ⟨b, hb, hb', hfield, -⟩ := field_of_fresh_hit hh hfresh
  obtain ⟨k, hk, hne⟩ : ∃ k < 8, K.set (K.hold sid nbytes m) (h + k) ≠ 0 := by
    by_contra hzero
    have hword := (steamIdHits_spec hh).2
    have hnull : readLE (K.set (K.hold sid nbytes m)) h 8 = 0 := by
      rw [readLE_eq_iff (by decide)]
      intro k hk
      by_contra hne
      exact hzero ⟨k, hk, by simpa using hne⟩
    rw [hnull] at hword
    exact hsid (UInt64.toNat_inj.mp hword.symm)
  have hc : ¬ Covers (K.hits sid nbytes m) (h + k) := by
    rintro ⟨h', hh', hlo, hhi⟩
    exact hfresh h' hh' (by omega)
  have hflag : ¬ K.Flag (h + k) := by
    intro hflag
    have := K.apart _ _ hflag hfield
    omega
  rw [K.set_out _ _ hflag] at hne
  have hf : ¬ K.Field (h + k) := fun hf => hne (hold_field hf)
  have hclear := ((hr.again _ ⟨h, hh, by omega⟩).resolve_right hc).resolve_left hf
  rw [hold_other hf hc, K.set_out _ _ hflag] at hne
  rw [K.clear_out _ _ hflag] at hclear
  exact hne hclear.symm

/-- Conversely, a window with one hold tick is undone only if the second scan spoilt nothing. What the
table took from it are hits that overlap no earlier copy, and only where there was room for all. -/
theorem harmless_of_second_scan (hsplit : K.hits sid nbytes m = kept ++ lost)
    (hnew : ∀ h ∈ new, h ∈ K.hits sid nbytes (K.hold sid nbytes m) ∧ lost = [] ∧
      ∀ h' ∈ kept, ¬ (h' < h + 8 ∧ h < h' + 8))
    (hM : ∀ a, ¬ Covers kept a → M a = K.set (K.hold sid nbytes m) a)
    (h : ∀ a < nbytes,
      K.release sid (kept ++ new) M (K.hold sid nbytes (K.hold sid nbytes m)) a = m a)
    (ha : Covers (K.hits sid nbytes (K.hold sid nbytes m)) a) : K.Harmless m a ∨ Covers kept a := by
  by_cases hkept : Covers kept a
  · exact Or.inr hkept
  · refine Or.inl (harmless_of_release ?_ (hold_covered ha) (h a (lt_of_covers_hits ha)))
    rw [covers_append]
    rintro (hk | ⟨x, hx, hlo, hhi⟩)
    · exact hkept hk
    · -- the hit that covers the byte is not blanked but put back, zeros of a field included
      obtain ⟨hhit, rfl, hfresh⟩ := hnew x hx
      rw [List.append_nil] at hsplit
      rw [← hsplit] at hfresh
      obtain ⟨b, hb, hb', hfield, hne⟩ := field_of_fresh_hit hhit hfresh
      have hcovered : Covers (kept ++ new) b := ⟨x, List.mem_append_right kept hx, hb, hb'⟩
      have hbyte := h b (lt_of_covers_hits ⟨x, hhit, hb, hb'⟩)
      rw [release, overlay, if_pos hcovered, hM, K.set_out _ b (not_flag_of_field hfield),
        hold_field hfield] at hbyte
      · exact hne hbyte.symm
      · rintro ⟨h', hh', hlo', hhi'⟩
        rw [← hsplit] at hh'
        exact hfresh h' hh' (by omega)

/-- Where a non-zero byte of the SteamID64 stands in fields only, blanking makes no new copies. -/
theorem hits_hold_eq_nil {k : Nat} (hk : k < 8) (hb : UInt8.ofNat (sid.toNat / 256 ^ k) ≠ 0)
    (hrare : ∀ a, K.set m a = UInt8.ofNat (sid.toNat / 256 ^ k) → K.Field a)
    (hfields : ∀ a, Covers (K.hits sid nbytes m) a → K.Field a) :
    K.hits sid nbytes (K.hold sid nbytes m) = [] := by
  refine List.eq_nil_iff_forall_not_mem.mpr fun h hh => ?_
  have hbyte := byte_of_hit hk hh
  by_cases hf : K.Field (h + k)
  · rw [K.set_out _ _ (not_flag_of_field hf), hold_field hf] at hbyte
    exact hb hbyte.symm
  · rw [K.set_byte _ _ _ (hold_other hf fun hc => hf (hfields _ hc)), K.set_set] at hbyte
    exact hf (hrare _ hbyte)

theorem recoverable_of_fields (hsplit : K.hits sid nbytes m = kept ++ lost)
    (hfields : ∀ a, Covers (K.hits sid nbytes m) a → K.Field a)
    (hagain : K.hits sid nbytes (K.hold sid nbytes m) = []) : K.Recoverable sid nbytes m kept lost := by
  refine ⟨fun a hflag hc => ?_, fun a hc => Or.inl (hfields a ((covers_hits hsplit).mpr (Or.inr hc))), ?_⟩
  · exact not_flag_of_field (hfields a ((covers_hits hsplit).mpr (Or.inl hc))) hflag
  · intro a hc
    rw [hagain] at hc
    obtain ⟨h, hh, -⟩ := hc
    simp at hh

end Markers

end Botid
