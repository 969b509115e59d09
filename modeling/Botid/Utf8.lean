import Mathlib.Data.List.Infix
import Mathlib.Data.List.TakeWhile

/-! Byte strings that are valid UTF-8: where they may be cut, and which scans cut no character. -/
namespace Utf8

/-- The bytes of a text, one code point after the other. -/
def encode (cs : List Char) : List UInt8 := cs.flatMap String.utf8EncodeChar

def Valid (s : List UInt8) : Prop := ∃ cs, encode cs = s

def Ascii (b : UInt8) : Prop := b.toNat < 0x80

instance : DecidablePred Ascii := fun b => inferInstanceAs (Decidable (b.toNat < 0x80))

/-- The first byte of a longer code point. -/
def First (b : UInt8) : Prop := 0xC0 ≤ b.toNat

/-- A byte of a code point behind its first one. -/
def Tail (b : UInt8) : Prop := 0x80 ≤ b.toNat ∧ b.toNat ≤ 0xBF

instance : DecidablePred Tail := fun b => inferInstanceAs (Decidable (0x80 ≤ b.toNat ∧ b.toNat ≤ 0xBF))

variable {p rest s tail : List UInt8} {a b : UInt8} {c d : Char} {i n : Nat} {q : UInt8 → Bool}

theorem Ascii.not_tail (h : Ascii a) : ¬ Tail a := fun ht => Nat.not_lt.mpr ht.1 h

theorem First.not_tail (h : First a) : ¬ Tail a := fun ht => absurd (Nat.le_trans h ht.2) (by decide)

theorem First.not_ascii (h : First a) : ¬ Ascii a := fun ha => absurd (Nat.lt_of_le_of_lt h ha) (by decide)

/-- One ASCII byte, or a first byte and its tail. -/
theorem encodeChar_cases (c : Char) :
    (∃ a, Ascii a ∧ String.utf8EncodeChar c = [a]) ∨
      ∃ a tail, First a ∧ (∀ b ∈ tail, Tail b) ∧ String.utf8EncodeChar c = a :: tail := by
  have hfirst : ∀ v k n : Nat, 0 < k → 0xC0 ≤ n → n + k ≤ 256 → First (UInt8.ofNat (v % k + n)) := by
    intro v k n hk hn hkn
    have hv : v % k < k := Nat.mod_lt v hk
    rw [First, UInt8.toNat_ofNat']
    omega
  have htail : ∀ v : Nat, Tail (UInt8.ofNat (v % 0x40 + 0x80)) := by
    intro v
    rw [Tail, UInt8.toNat_ofNat']
    omega
  rw [String.utf8EncodeChar]
  split_ifs with h1 h2 h3
  · refine Or.inl ⟨_, ?_, rfl⟩
    rw [Ascii, UInt8.toNat_ofNat']
    omega
  · refine Or.inr ⟨_, _, hfirst _ _ _ (by decide) (by decide) (by decide), ?_, rfl⟩
    exact List.forall_mem_singleton.mpr (htail _)
  · refine Or.inr ⟨_, _, hfirst _ _ _ (by decide) (by decide) (by decide), ?_, rfl⟩
    exact List.forall_mem_cons.mpr ⟨htail _, List.forall_mem_singleton.mpr (htail _)⟩
  · refine Or.inr ⟨_, _, hfirst _ _ _ (by decide) (by decide) (by decide), ?_, rfl⟩
    exact List.forall_mem_cons.mpr ⟨htail _, List.forall_mem_cons.mpr
      ⟨htail _, List.forall_mem_singleton.mpr (htail _)⟩⟩

theorem valid_nil : Valid [] := ⟨[], rfl⟩

theorem Valid.append (hp : Valid p) (hs : Valid s) : Valid (p ++ s) := by
  obtain ⟨cs, rfl⟩ := hp
  obtain ⟨ds, rfl⟩ := hs
  exact ⟨cs ++ ds, List.flatMap_append⟩

/-- A valid string byte by byte: ASCII bytes, and first bytes with their tails. -/
inductive Units : List UInt8 → Prop
  | nil : Units []
  | ascii {a : UInt8} {s : List UInt8} (ha : Ascii a) (hchar : Valid [a]) (hs : Units s) :
      Units (a :: s)
  | wide {a : UInt8} {tail s : List UInt8} (ha : First a) (htail : ∀ b ∈ tail, Tail b)
      (hchar : Valid (a :: tail)) (hs : Units s) : Units (a :: (tail ++ s))

theorem Units.valid (h : Units s) : Valid s := by
  induction h with
  | nil => exact valid_nil
  | ascii _ hchar _ ih => exact hchar.append ih
  | wide _ _ hchar _ ih => exact hchar.append ih

theorem Valid.units (h : Valid s) : Units s := by
  obtain ⟨cs, rfl⟩ := h
  induction cs with
  | nil => exact .nil
  | cons c cs ih =>
    have hchar : Valid (String.utf8EncodeChar c) := ⟨[c], by rw [encode, List.flatMap_singleton]⟩
    rw [encode, List.flatMap_cons]
    rcases encodeChar_cases c with ⟨a, ha, heq⟩ | ⟨a, tail, ha, htail, heq⟩
    · rw [heq] at hchar ⊢
      exact .ascii ha hchar ih
    · rw [heq] at hchar ⊢
      exact .wide ha htail hchar ih

/-- No code point begins with the bytes of another. -/
theorem encodeChar_inj (h : String.utf8EncodeChar c ++ p = String.utf8EncodeChar d ++ s) : c = d := by
  have hc := @ByteArray.utf8DecodeChar?_utf8EncodeChar_append p.toByteArray c
  have hd := @ByteArray.utf8DecodeChar?_utf8EncodeChar_append s.toByteArray d
  rw [← List.toByteArray_append, h, List.toByteArray_append, hd] at hc
  exact (Option.some.inj hc).symm

/-- What follows a valid string inside a valid string is valid. -/
theorem Valid.of_append (hp : Valid p) (h : Valid (p ++ rest)) : Valid rest := by
  obtain ⟨cs, rfl⟩ := hp
  obtain ⟨ds, hds⟩ := h
  induction cs generalizing ds with
  | nil => exact ⟨ds, hds⟩
  | cons c cs ih =>
    rw [encode, encode, List.flatMap_cons, List.append_assoc] at hds
    cases ds with
    | nil => exact absurd (List.append_eq_nil_iff.mp hds.symm).1 String.utf8EncodeChar_ne_nil
    | cons d ds =>
      rw [List.flatMap_cons] at hds
      obtain rfl := encodeChar_inj hds
      exact ih ds (List.append_cancel_left hds)

theorem Valid.not_tail (h : Valid (a :: s)) : ¬ Tail a := by
  cases h.units with
  | ascii ha => exact ha.not_tail
  | wide ha => exact ha.not_tail

/-- Behind its first byte, a valid string goes on with tails up to the end of that code point. -/
theorem Valid.of_cons (h : Valid (a :: s)) :
    ∃ tail rest, s = tail ++ rest ∧ (∀ b ∈ tail, Tail b) ∧ Valid rest ∧ (Ascii a → tail = []) := by
  cases h.units with
  | ascii ha _ hs => exact ⟨[], s, rfl, List.forall_mem_nil _, hs.valid, fun _ => rfl⟩
  | @wide _ tail rest ha htail _ hs =>
    exact ⟨tail, rest, rfl, htail, hs.valid, fun hascii => absurd hascii ha.not_ascii⟩

theorem Valid.of_ascii_cons (ha : Ascii a) (h : Valid (a :: s)) : Valid s := by
  obtain ⟨tail, rest, rfl, -, hrest, htail⟩ := h.of_cons
  rwa [htail ha, List.nil_append]

/-- A valid string may be cut in front of every byte that is no tail. -/
theorem Valid.take (h : Valid s) (hi : ∀ b ∈ s[i]?, ¬ Tail b) : Valid (s.take i) := by
  induction h.units generalizing i with
  | nil =>
    rw [List.take_nil]
    exact valid_nil
  | @ascii a s ha hchar hs ih =>
    cases i with
    | zero => exact valid_nil
    | succ i => exact hchar.append (ih hs.valid hi)
  | @wide a tail s ha htail hchar hs ih =>
    cases i with
    | zero => exact valid_nil
    | succ i =>
      rw [List.getElem?_cons_succ] at hi
      rcases Nat.lt_or_ge i tail.length with hlt | hge
      · rw [List.getElem?_append_left hlt, List.getElem?_eq_getElem hlt] at hi
        exact absurd (htail _ (List.getElem_mem hlt)) (hi _ rfl)
      · rw [List.getElem?_append_right hge] at hi
        rw [List.take_succ_cons, List.take_append, List.take_of_length_le hge]
        exact hchar.append (ih hs.valid hi)

/-- A scan that makes no difference between the bytes of longer code points. -/
def Uniform (q : UInt8 → Bool) : Prop := ∀ a b, ¬ Ascii a → ¬ Ascii b → q a = q b

theorem Tail.not_ascii (h : Tail b) : ¬ Ascii b := fun hb => hb.not_tail h

theorem Valid.takeWhile (hq : Uniform q) (h : Valid s) : Valid (s.takeWhile q) := by
  induction h.units with
  | nil => exact valid_nil
  | @ascii a s _ hchar hs ih =>
    cases ha : q a with
    | true =>
      rw [List.takeWhile_cons_of_pos ha]
      exact hchar.append (ih hs.valid)
    | false =>
      rw [List.takeWhile_cons_of_neg (by simp [ha])]
      exact valid_nil
  | @wide a tail s hfirst htail hchar hs ih =>
    cases ha : q a with
    | true =>
      have hall : ∀ b ∈ tail, q b = true := by
        intro b hb
        rw [hq b a (htail b hb).not_ascii hfirst.not_ascii, ha]
      rw [List.takeWhile_cons_of_pos ha, List.takeWhile_append_of_pos hall]
      exact hchar.append (ih hs.valid)
    | false =>
      rw [List.takeWhile_cons_of_neg (by simp [ha])]
      exact valid_nil

theorem Valid.dropWhile (hq : Uniform q) (h : Valid s) : Valid (s.dropWhile q) := by
  have hboth : Valid (s.takeWhile q ++ s.dropWhile q) := by rwa [List.takeWhile_append_dropWhile]
  exact (h.takeWhile hq).of_append hboth

/-- A tail that has been cut off from its first byte, and a valid string behind it. -/
def Resumes (s : List UInt8) : Prop := ∃ tail rest, s = tail ++ rest ∧ (∀ b ∈ tail, Tail b) ∧ Valid rest

theorem Valid.resumes (h : Valid s) : Resumes s := ⟨[], s, rfl, List.forall_mem_nil _, h⟩

theorem Resumes.valid_of_ascii (ha : Ascii a) (h : Resumes (a :: s)) : Valid (a :: s) := by
  obtain ⟨tail, rest, heq, htail, hrest⟩ := h
  cases tail with
  | nil => rwa [heq]
  | cons b tail =>
    cases heq
    exact absurd (htail a List.mem_cons_self) ha.not_tail

/-- Byte by byte through a valid string. -/
theorem Resumes.of_cons (h : Resumes (a :: s)) : Resumes s := by
  obtain ⟨tail, rest, heq, htail, hrest⟩ := h
  cases tail with
  | nil =>
    rw [List.nil_append] at heq
    subst heq
    obtain ⟨tail, rest, rfl, htail, hrest, -⟩ := hrest.of_cons
    exact ⟨tail, rest, rfl, htail, hrest⟩
  | cons b tail =>
    cases heq
    exact ⟨tail, rest, rfl, fun c hc => htail c (List.mem_cons_of_mem _ hc), hrest⟩

end Utf8
