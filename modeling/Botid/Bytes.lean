import Mathlib.Data.List.Infix
import Mathlib.Data.List.TakeWhile

/-! Byte strings as the native code holds them: literals, C strings and fixed character cells. -/
namespace Botid

/-- A `std::string` or a character buffer, byte by byte. -/
abbrev Bytes := List UInt8

/-- The bytes of an ASCII literal of the source. -/
def ascii (s : String) : Bytes := s.toList.map fun c => UInt8.ofNat c.toNat

/-- What a reader of a `const char*` sees: everything before the first NUL. -/
def cstr (b : Bytes) : Bytes := b.takeWhile (· ≠ 0)

/-- A `size`-byte cell after `memset` to zero and `strncpy` of at most `size - 1` bytes. -/
def charCell (size : Nat) (b : Bytes) : Bytes :=
  let copied := (cstr b).take (size - 1)
  copied ++ List.replicate (size - copied.length) 0

/-- ASCII lower case of one byte. -/
def asciiLower (c : UInt8) : UInt8 := if 65 ≤ c ∧ c ≤ 90 then c + 32 else c

/-- `AsciiLowerCopy`. -/
def asciiLowerCopy (s : Bytes) : Bytes := s.map asciiLower

variable {b : Bytes} {n : Nat}

/-- A fact about one byte, checked for all of them. -/
theorem byte_induction {P : UInt8 → Prop} (h : ∀ b : BitVec 8, P (.ofBitVec b)) (x : UInt8) : P x := by
  cases x with
  | ofBitVec b => exact h b

theorem cstr_no_nul : ∀ c ∈ cstr b, c ≠ 0 := by
  intro c hc
  simpa using List.mem_takeWhile_imp hc

theorem cstr_eq_self (h : ∀ c ∈ b, c ≠ 0) : cstr b = b := by
  apply List.takeWhile_eq_self_iff.mpr
  simpa using h

/-- A cell reads back as the string it was given, cut at its first NUL and at the cell's room. -/
theorem cstr_charCell (hn : 0 < n) : cstr (charCell n b) = (cstr b).take (n - 1) := by
  have hcopied : ∀ c ∈ (cstr b).take (n - 1), c ≠ 0 :=
    fun c hc => cstr_no_nul c (List.mem_of_mem_take hc)
  have hlen : ((cstr b).take (n - 1)).length ≤ n - 1 := by
    rw [List.length_take]
    omega
  obtain ⟨k, hk⟩ : ∃ k, n - ((cstr b).take (n - 1)).length = k + 1 :=
    ⟨n - ((cstr b).take (n - 1)).length - 1, by omega⟩
  rw [charCell, hk, List.replicate_succ]
  simp only [cstr] at hcopied ⊢
  rw [List.takeWhile_append_of_pos (by simpa using hcopied)]
  simp

/-- A NUL-free string that fits is stored whole. -/
theorem cstr_charCell_of_fits (hb : ∀ c ∈ b, c ≠ 0) (hlen : b.length < n) :
    cstr (charCell n b) = b := by
  rw [cstr_charCell (by omega), cstr_eq_self hb, List.take_of_length_le (by omega)]

end Botid
