import Mathlib.Data.Nat.Basic
import Mathlib.Tactic.Ring

/-! Byte-addressed objects and little-endian words at arbitrary offsets in them. -/
namespace ByteMem

/-- The bytes of one object, by offset. -/
abbrev Mem := Nat → UInt8

/-- The `n`-byte little-endian word at an offset. -/
def readLE (m : Mem) (off : Nat) : Nat → Nat
  | 0 => 0
  | n + 1 => (m off).toNat + 256 * readLE m (off + 1) n

/-- Store the low `n` bytes of a value at an offset. -/
def writeLE (m : Mem) (off n v : Nat) : Mem :=
  fun a => if off ≤ a ∧ a < off + n then UInt8.ofNat (v / 256 ^ (a - off)) else m a

/-- The `n` bytes at an offset. -/
def readBytes (m : Mem) (off : Nat) : Nat → List UInt8
  | 0 => []
  | n + 1 => m off :: readBytes m (off + 1) n

/-- Store a string of bytes at an offset. -/
def writeBytes (m : Mem) (off : Nat) (b : List UInt8) : Mem :=
  fun a => if off ≤ a ∧ a < off + b.length then b.getD (a - off) 0 else m a

/-- Nothing but the `n` bytes at an offset changed. -/
def SameOutside (off n : Nat) (m m' : Mem) : Prop := ∀ a, a < off ∨ off + n ≤ a → m' a = m a

variable {m m' m'' : Mem} {off a n v k : Nat} {b b' : List UInt8}

theorem readLE_lt : readLE m off n < 256 ^ n := by
  induction n generalizing off with
  | zero => simp [readLE]
  | succ n ih =>
    have hb : (m off).toNat < 256 := UInt8.toNat_lt _
    have hr : readLE m (off + 1) n < 256 ^ n := ih
    rw [readLE, pow_succ]
    omega

theorem readLE_congr (h : ∀ k < n, m (off + k) = m' (off + k)) :
    readLE m off n = readLE m' off n := by
  induction n generalizing off with
  | zero => rfl
  | succ n ih =>
    have h0 := h 0 (by omega)
    have hr : readLE m (off + 1) n = readLE m' (off + 1) n := by
      apply ih
      intro k hk
      have := h (k + 1) (by omega)
      rwa [show off + (k + 1) = off + 1 + k by omega] at this
    simp only [Nat.add_zero] at h0
    rw [readLE, readLE, h0, hr]

/-- Each byte of an object is the matching digit of any word read over it. -/
theorem byte_eq_of_readLE (hk : k < n) :
    m (off + k) = UInt8.ofNat (readLE m off n / 256 ^ k) := by
  induction n generalizing off k with
  | zero => omega
  | succ n ih =>
    have hb : (m off).toNat < 256 := UInt8.toNat_lt _
    cases k with
    | zero =>
      apply UInt8.toNat_inj.mp
      rw [UInt8.toNat_ofNat', readLE]
      simp only [Nat.add_zero, pow_zero, Nat.div_one]
      omega
    | succ k =>
      have hdiv : ((m off).toNat + 256 * readLE m (off + 1) n) / 256 ^ (k + 1) =
          readLE m (off + 1) n / 256 ^ k := by
        rw [pow_succ', ← Nat.div_div_eq_div_mul, show
          ((m off).toNat + 256 * readLE m (off + 1) n) / 256 = readLE m (off + 1) n by omega]
      rw [readLE, hdiv, ← ih (by omega : k < n)]
      congr 1
      omega

theorem readLE_eq_iff (hv : v < 256 ^ n) :
    readLE m off n = v ↔ ∀ k < n, m (off + k) = UInt8.ofNat (v / 256 ^ k) := by
  constructor
  · rintro rfl k hk
    exact byte_eq_of_readLE hk
  · intro h
    induction n generalizing off v with
    | zero => rw [pow_zero] at hv; rw [readLE]; omega
    | succ n ih =>
      have h0 := congrArg UInt8.toNat (h 0 (by omega))
      rw [UInt8.toNat_ofNat'] at h0
      simp only [Nat.add_zero, pow_zero, Nat.div_one] at h0
      have hr : readLE m (off + 1) n = v / 256 := by
        apply ih
        · rw [pow_succ] at hv
          omega
        · intro k hk
          have := h (k + 1) (by omega)
          rwa [show off + (k + 1) = off + 1 + k by omega, pow_succ', ← Nat.div_div_eq_div_mul] at this
      rw [readLE, h0, hr]
      omega

theorem writeLE_in (h1 : off ≤ a) (h2 : a < off + n) :
    writeLE m off n v a = UInt8.ofNat (v / 256 ^ (a - off)) := by
  simp [writeLE, h1, h2]

theorem writeLE_out (h : a < off ∨ off + n ≤ a) : writeLE m off n v a = m a := by
  have : ¬ (off ≤ a ∧ a < off + n) := by omega
  simp [writeLE, this]

theorem readLE_writeLE (hv : v < 256 ^ n) : readLE (writeLE m off n v) off n = v := by
  rw [readLE_eq_iff hv]
  intro k hk
  rw [writeLE_in (by omega) (by omega), Nat.add_sub_cancel_left]

theorem readLE_writeLE_of_disjoint {k : Nat} (h : a + k ≤ off ∨ off + n ≤ a) :
    readLE (writeLE m off n v) a k = readLE m a k := by
  apply readLE_congr
  intro j hj
  exact writeLE_out (by omega)

theorem sameOutside_writeLE : SameOutside off n m (writeLE m off n v) := fun _ h => writeLE_out h

theorem sameOutside_writeBytes : SameOutside off b.length m (writeBytes m off b) := by
  intro a h
  have hout : ¬ (off ≤ a ∧ a < off + b.length) := by omega
  simp [writeBytes, hout]

theorem SameOutside.trans (h : SameOutside off n m m') (h' : SameOutside off n m' m'') :
    SameOutside off n m m'' := fun a ha => (h' a ha).trans (h a ha)

theorem length_readBytes : (readBytes m off n).length = n := by
  induction n generalizing off with
  | zero => rfl
  | succ n ih => rw [readBytes, List.length_cons, ih]

theorem readBytes_congr (h : ∀ k < n, m (off + k) = m' (off + k)) :
    readBytes m off n = readBytes m' off n := by
  induction n generalizing off with
  | zero => rfl
  | succ n ih =>
    have h0 := h 0 (by omega)
    have hr : readBytes m (off + 1) n = readBytes m' (off + 1) n := by
      apply ih
      intro k hk
      have := h (k + 1) (by omega)
      rwa [show off + (k + 1) = off + 1 + k by omega] at this
    simp only [Nat.add_zero] at h0
    rw [readBytes, readBytes, h0, hr]

theorem readBytes_add : readBytes m off (n + k) = readBytes m off n ++ readBytes m (off + n) k := by
  induction n generalizing off with
  | zero => simp [readBytes]
  | succ n ih =>
    rw [show n + 1 + k = n + k + 1 by omega, readBytes, readBytes, ih, List.cons_append,
      show off + 1 + n = off + (n + 1) by omega]

theorem readBytes_eq_iff (hb : b.length = n) :
    readBytes m off n = b ↔ ∀ k < n, m (off + k) = b.getD k 0 := by
  induction n generalizing off b with
  | zero => simp [readBytes, List.length_eq_zero_iff.mp hb]
  | succ n ih =>
    cases b with
    | nil => simp at hb
    | cons c b =>
      rw [readBytes, List.cons.injEq, ih (by simpa using hb)]
      constructor
      · rintro ⟨h0, h⟩ k hk
        cases k with
        | zero => exact h0
        | succ k =>
          rw [show off + (k + 1) = off + 1 + k by omega, List.getD_cons_succ]
          exact h k (by omega)
      · intro h
        refine ⟨h 0 (by omega), fun k hk => ?_⟩
        have := h (k + 1) (by omega)
        rwa [show off + (k + 1) = off + 1 + k by omega, List.getD_cons_succ] at this

/-- What was stored reads back. -/
theorem readBytes_writeBytes : readBytes (writeBytes m off b) off b.length = b := by
  rw [readBytes_eq_iff rfl]
  intro k hk
  have hin : off ≤ off + k ∧ off + k < off + b.length := by omega
  simp only [writeBytes, hin, and_self, if_true, Nat.add_sub_cancel_left]

/-- A second store at the same place leaves what the first one wrote behind it. -/
theorem readBytes_overwrite {c : List UInt8} (hc : c.length = b.length) :
    readBytes (writeBytes (writeBytes m off (b ++ b')) off c) off (b.length + b'.length) =
      c ++ b' := by
  have hfirst : readBytes (writeBytes m off (b ++ b')) off (b.length + b'.length) = b ++ b' := by
    rw [← List.length_append]
    exact readBytes_writeBytes
  rw [readBytes_add] at hfirst
  have hbehind : readBytes (writeBytes (writeBytes m off (b ++ b')) off c) (off + b.length) b'.length =
      readBytes (writeBytes m off (b ++ b')) (off + b.length) b'.length := by
    apply readBytes_congr
    intro k _
    exact sameOutside_writeBytes _ (by omega)
  rw [readBytes_add, hbehind, (List.append_inj hfirst length_readBytes).2, ← hc, readBytes_writeBytes]

end ByteMem
