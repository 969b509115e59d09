import Botid.Bytes
import Botid.Loop

/-! `ParseSigString`: the text of a signature, read byte by byte through `strtoul`. -/
namespace Botid

abbrev space : UInt8 := 32
abbrev questionMark : UInt8 := 63

/-- `std::isspace` in the C locale. -/
def isCSpace (c : UInt8) : Bool := c = space ∨ 9 ≤ c ∧ c ≤ 13

/-- The value of a hexadecimal digit. -/
def hexDigit (c : UInt8) : Option Nat :=
  if 48 ≤ c ∧ c ≤ 57 then some (c.toNat - 48)
  else if 65 ≤ c ∧ c ≤ 70 then some (c.toNat - 55)
  else if 97 ≤ c ∧ c ≤ 102 then some (c.toNat - 87)
  else none

def isHexDigit (c : UInt8) : Bool := (hexDigit c).isSome

/-- A sign in front of a number. -/
def skipSign : Bytes → Bytes
  | [] => []
  | c :: s => if c = 43 ∨ c = 45 then s else c :: s

/-- `0x` or `0X`, where a digit follows it. -/
def skipHexMark : Bytes → Bytes
  | z :: x :: d :: s =>
    if z = 48 ∧ (x = 120 ∨ x = 88) ∧ isHexDigit d then d :: s else z :: x :: d :: s
  | s => s

/-- `std::strtoul(p, &end, 16)`: the value, and the text that `end` points to. -/
def strtoul16 (p : Bytes) : Nat × Bytes :=
  let signed := p.dropWhile isCSpace
  let s := skipHexMark (skipSign signed)
  let v := (s.takeWhile isHexDigit).foldl (fun v c => 16 * v + (hexDigit c).getD 0) 0
  if s.takeWhile isHexDigit = [] then (0, p)
  else
    (if 2 ^ 64 ≤ v then 2 ^ 64 - 1 else if signed.head? = some 45 then (2 ^ 64 - v) % 2 ^ 64 else v,
      s.dropWhile isHexDigit)

/-- The locals of `ParseSigString`; `ok` is off once it has returned false. -/
structure SigCursor where
  p : Bytes
  outBytes : Bytes
  outWild : List Bool
  ok : Bool

def SigCursor.push (x : SigCursor) (p : Bytes) (v : UInt8) (wild : Bool) : SigCursor :=
  { x with p, outBytes := x.outBytes ++ [v], outWild := x.outWild ++ [wild] }

def sigTurn (x : SigCursor) : SigCursor × Bool :=
  match x.p with
  | [] => (x, false)
  | c :: rest =>
    if c = space then ({ x with p := rest }, true)
    else if c = questionMark then
      (x.push (if rest.head? = some questionMark then rest.tail else rest) 0 true, true)
    else
      let r := strtoul16 x.p
      let consumed := x.p.length - r.2.length
      if consumed = 0 ∨ 2 < consumed ∨ 0xFF < r.1 then ({ x with ok := false }, false)
      else (x.push r.2 (UInt8.ofNat r.1) false, true)

/-- The answer, and what `outBytes` and `outWild` hold afterwards. -/
def parseSigString (sigStr : Bytes) : Bool × Bytes × List Bool :=
  let x := Loop.run (fun x : SigCursor => x.p.length) sigTurn ⟨cstr sigStr, [], [], true⟩
  (x.ok && x.outBytes ≠ [], x.outBytes, x.outWild)

/-- One element of a signature, a byte or a wildcard, as text. -/
inductive ElementText : Option UInt8 → Bytes → Prop
  | byte {c d : UInt8} {m n : Nat} (hc : hexDigit c = some m) (hd : hexDigit d = some n) :
      ElementText (some (UInt8.ofNat (16 * m + n))) [c, d]
  | wildcard : ElementText none [questionMark]
  | wideWildcard : ElementText none [questionMark, questionMark]

/-- The elements of a signature, with one space or more between them. -/
inductive PatternText : List (Option UInt8) → Bytes → Prop
  | last {e : Option UInt8} {t : Bytes} (he : ElementText e t) : PatternText [e] t
  | cons {e : Option UInt8} {t text : Bytes} {pattern : List (Option UInt8)} (n : Nat)
      (he : ElementText e t) (h : PatternText pattern text) :
      PatternText (e :: pattern) (t ++ List.replicate (n + 1) space ++ text)

/-- A signature as text, with spaces in front of it and behind it. -/
def Rendered (pattern : List (Option UInt8)) (text : Bytes) : Prop :=
  ∃ m n body, PatternText pattern body ∧
    text = List.replicate m space ++ body ++ List.replicate n space

/-- `outBytes` of a pattern; under a wildcard it holds zero. -/
def patternBytes (pattern : List (Option UInt8)) : Bytes := pattern.map fun e => e.getD 0

/-- `outWild` of a pattern. -/
def patternWild (pattern : List (Option UInt8)) : List Bool := pattern.map Option.isNone

variable {c d : UInt8} {m n : Nat} {s t rest text : Bytes} {x : SigCursor} {e : Option UInt8}
  {pattern : List (Option UInt8)}

theorem isHexDigit_of_hexDigit (h : hexDigit c = some m) : isHexDigit c = true := by
  rw [isHexDigit, h]
  rfl

theorem hexDigit_lt (h : hexDigit c = some m) : m < 16 := by
  have hall : ∀ m ∈ hexDigit c, m < 16 :=
    byte_induction (P := fun c => ∀ m ∈ hexDigit c, m < 16) (by decide +kernel) c
  exact hall m h

theorem ne_of_isHexDigit (h : isHexDigit c = true) (hd : isHexDigit d = false) : c ≠ d := by
  rintro rfl
  rw [h] at hd
  exact absurd hd (by decide)

theorem not_isCSpace_of_isHexDigit (h : isHexDigit c = true) : isCSpace c = false :=
  byte_induction (P := fun c => isHexDigit c = true → isCSpace c = false) (by decide +kernel) c h

/-- Two digits, and no third one. -/
theorem strtoul16_two_digits (hc : hexDigit c = some m) (hd : hexDigit d = some n)
    (hrest : ∀ e ∈ rest.head?, isHexDigit e = false) :
    strtoul16 (c :: d :: rest) = (16 * m + n, rest) := by
  have hcd : isHexDigit c = true := isHexDigit_of_hexDigit hc
  have hdd : isHexDigit d = true := isHexDigit_of_hexDigit hd
  have hspace : ¬ isCSpace c = true := by simp [not_isCSpace_of_isHexDigit hcd]
  have hplus : c ≠ 43 := ne_of_isHexDigit hcd rfl
  have hminus : c ≠ 45 := ne_of_isHexDigit hcd rfl
  have hx : d ≠ 120 := ne_of_isHexDigit hdd rfl
  have hX : d ≠ 88 := ne_of_isHexDigit hdd rfl
  have hsign : skipSign (c :: d :: rest) = c :: d :: rest := if_neg (by simp [hplus, hminus])
  have hmark : skipHexMark (c :: d :: rest) = c :: d :: rest := by
    cases rest with
    | nil => rfl
    | cons e rest => exact if_neg (by simp [hx, hX])
  have hstop : rest.takeWhile isHexDigit = [] ∧ rest.dropWhile isHexDigit = rest := by
    cases rest with
    | nil => exact ⟨rfl, rfl⟩
    | cons e rest =>
      have he : ¬ isHexDigit e = true := by simp [hrest e rfl]
      exact ⟨List.takeWhile_cons_of_neg he, List.dropWhile_cons_of_neg he⟩
  have hm := hexDigit_lt hc
  have hn := hexDigit_lt hd
  rw [strtoul16, List.dropWhile_cons_of_neg hspace, hsign, hmark,
    List.takeWhile_cons_of_pos hcd, List.takeWhile_cons_of_pos hdd, hstop.1,
    List.dropWhile_cons_of_pos hcd, List.dropWhile_cons_of_pos hdd, hstop.2]
  rw [if_neg (List.cons_ne_nil _ _), List.foldl_cons, List.foldl_cons, List.foldl_nil, hc, hd,
    Option.getD_some, Option.getD_some, Nat.mul_zero, Nat.zero_add, if_neg (by omega),
    if_neg (by simpa using hminus)]

theorem length_strtoul16_le : (strtoul16 s).2.length ≤ s.length := by
  have hsign : ∀ s, (skipSign s).length ≤ s.length := by
    intro s
    cases s with
    | nil => exact le_rfl
    | cons c s =>
      rw [skipSign]
      split
      · exact Nat.le_succ _
      · exact le_rfl
  have hmark : ∀ s, (skipHexMark s).length ≤ s.length := by
    intro s
    rw [skipHexMark.eq_def]
    split
    · split
      · simp only [List.length_cons]
        omega
      · exact le_rfl
    · exact le_rfl
  rw [strtoul16]
  split
  · exact le_rfl
  · calc _ ≤ (skipHexMark (skipSign (s.dropWhile isCSpace))).length := List.length_dropWhile_le _ _
      _ ≤ _ := (hmark _).trans (hsign _)
      _ ≤ s.length := List.length_dropWhile_le _ _

/-- The tokenizer ends: every turn that another one follows has moved on. -/
theorem shrinks_sigTurn : Loop.Shrinks (fun x : SigCursor => x.p.length) sigTurn := by
  rintro ⟨p, bytes, wild, ok⟩ h
  rw [sigTurn] at h ⊢
  cases p with
  | nil => simp at h
  | cons c rest =>
    dsimp only at h ⊢
    by_cases hspace : c = space
    · rw [if_pos hspace]
      exact Nat.lt_succ_self _
    · rw [if_neg hspace] at h ⊢
      by_cases hwild : c = questionMark
      · rw [if_pos hwild]
        dsimp only [SigCursor.push]
        split
        · rw [List.length_tail, List.length_cons]
          omega
        · exact Nat.lt_succ_self _
      · rw [if_neg hwild] at h ⊢
        split at h
        · simp at h
        · rename_i htoken
          rw [if_neg htoken]
          have hle : (strtoul16 (c :: rest)).2.length ≤ (c :: rest).length := length_strtoul16_le
          dsimp only [SigCursor.push]
          omega

/-- Spaces are skipped. -/
theorem run_spaces (hp : x.p = List.replicate n space ++ s) :
    Loop.run (fun x : SigCursor => x.p.length) sigTurn x =
      Loop.run (fun x : SigCursor => x.p.length) sigTurn { x with p := s } := by
  induction n generalizing x with
  | zero =>
    rw [List.replicate_zero, List.nil_append] at hp
    subst hp
    rfl
  | succ n ih =>
    have hturn : sigTurn x = ({ x with p := List.replicate n space ++ s }, true) := by
      rw [sigTurn, hp, List.replicate_succ, List.cons_append]
      exact if_pos rfl
    rw [Loop.run_of_again shrinks_sigTurn hturn, ih rfl]

/-- One element is read as it was written. -/
theorem sigTurn_element (he : ElementText e t) (hp : x.p = t ++ s)
    (hs : ∀ c ∈ s.head?, c = space) :
    sigTurn x = (x.push s (e.getD 0) e.isNone, true) := by
  cases he with
  | @byte c d m n hc hd =>
    have hspace : c ≠ space := ne_of_isHexDigit (isHexDigit_of_hexDigit hc) rfl
    have hwild : c ≠ questionMark := ne_of_isHexDigit (isHexDigit_of_hexDigit hc) rfl
    have hstop : ∀ e ∈ s.head?, isHexDigit e = false := by
      intro e he
      rw [hs e he]
      rfl
    have hm := hexDigit_lt hc
    have hn := hexDigit_lt hd
    rw [sigTurn, hp, List.cons_append, List.cons_append, List.nil_append]
    dsimp only
    rw [if_neg hspace, if_neg hwild, strtoul16_two_digits hc hd hstop]
    dsimp only
    rw [if_neg (by simp only [List.length_cons]; omega)]
    rfl
  | wildcard =>
    have hnext : ¬ s.head? = some questionMark := by
      intro h
      exact absurd (hs _ h) (by decide)
    rw [sigTurn, hp, List.cons_append, List.nil_append]
    dsimp only
    rw [if_neg (by decide), if_pos rfl, if_neg hnext]
    rfl
  | wideWildcard =>
    rw [sigTurn, hp, List.cons_append, List.cons_append, List.nil_append]
    dsimp only
    rw [if_neg (by decide), if_pos rfl, List.head?_cons, if_pos rfl]
    rfl

/-- The elements are read one after the other. -/
theorem run_pattern (h : PatternText pattern text) (hp : x.p = text ++ List.replicate n space) :
    Loop.run (fun x : SigCursor => x.p.length) sigTurn x =
      { x with
        p := []
        outBytes := x.outBytes ++ patternBytes pattern
        outWild := x.outWild ++ patternWild pattern } := by
  induction h generalizing x with
  | @last e t he =>
    have hend : ∀ c ∈ (List.replicate n space).head?, c = space := by
      intro c hc
      exact List.eq_of_mem_replicate (List.mem_of_mem_head? hc)
    rw [Loop.run_of_again shrinks_sigTurn (sigTurn_element he hp hend),
      @run_spaces n [] _ (List.append_nil _).symm, Loop.run_of_done shrinks_sigTurn rfl]
    rfl
  | @cons e t text pattern k he h ih =>
    rw [List.append_assoc, List.append_assoc] at hp
    have hnext : ∀ c ∈ (List.replicate (k + 1) space ++ (text ++ List.replicate n space)).head?,
        c = space := by
      intro c hc
      rw [List.replicate_succ, List.cons_append, List.head?_cons] at hc
      exact (Option.mem_some_iff.mp hc).symm
    rw [Loop.run_of_again shrinks_sigTurn (sigTurn_element he hp hnext), run_spaces rfl, ih rfl]
    simp [SigCursor.push, patternBytes, patternWild]

theorem ElementText.no_nul (he : ElementText e t) : ∀ c ∈ t, c ≠ 0 := by
  have hmark : questionMark ≠ 0 := by decide
  cases he with
  | byte hc hd =>
    rw [List.forall_mem_cons, List.forall_mem_singleton]
    exact ⟨ne_of_isHexDigit (isHexDigit_of_hexDigit hc) rfl,
      ne_of_isHexDigit (isHexDigit_of_hexDigit hd) rfl⟩
  | wildcard => exact List.forall_mem_singleton.mpr hmark
  | wideWildcard => exact List.forall_mem_cons.mpr ⟨hmark, List.forall_mem_singleton.mpr hmark⟩

theorem spaces_no_nul : ∀ c ∈ List.replicate n space, c ≠ 0 := by
  intro c hc
  rw [List.eq_of_mem_replicate hc]
  decide

theorem PatternText.no_nul (h : PatternText pattern text) : ∀ c ∈ text, c ≠ 0 := by
  induction h with
  | last he => exact he.no_nul
  | cons n he _ ih =>
    rw [List.forall_mem_append, List.forall_mem_append]
    exact ⟨⟨he.no_nul, spaces_no_nul⟩, ih⟩

theorem PatternText.ne_nil (h : PatternText pattern text) : pattern ≠ [] := by
  cases h with
  | last => exact List.cons_ne_nil _ _
  | cons => exact List.cons_ne_nil _ _

/-- A signature parses back to the pattern it was written from. -/
theorem parseSigString_rendered (h : Rendered pattern text) :
    parseSigString text = (true, patternBytes pattern, patternWild pattern) := by
  obtain ⟨m, n, body, hbody, rfl⟩ := h
  have hnul : ∀ c ∈ List.replicate m space ++ body ++ List.replicate n space, c ≠ 0 := by
    rw [List.forall_mem_append, List.forall_mem_append]
    exact ⟨⟨spaces_no_nul, hbody.no_nul⟩, spaces_no_nul⟩
  have hne : patternBytes pattern ≠ [] := by
    rw [patternBytes, ne_eq, List.map_eq_nil_iff]
    exact hbody.ne_nil
  rw [parseSigString, cstr_eq_self hnul, List.append_assoc, run_spaces rfl, run_pattern hbody rfl]
  simp [hne]

/-- Digits of either case, both wildcards, and more than one space. -/
example : Rendered [some 0x4B, none, none, some 0xE8] (ascii " 4b  ?? ? E8") :=
  ⟨1, 0, _, .cons 1 (@ElementText.byte 52 98 4 11 rfl rfl) (.cons 0 .wideWildcard (.cons 0 .wildcard
    (.last (@ElementText.byte 69 56 14 8 rfl rfl)))), rfl⟩

/-- What `strtoul` takes for a token beyond two digits: a sign, a digit behind a tab, a mark. -/
example : parseSigString (ascii "+5 -0 \t7") = (true, [5, 0, 7], [false, false, false]) ∧
    (parseSigString (ascii "0x5")).1 = false ∧ (parseSigString (ascii "-1")).1 = false ∧
    (parseSigString (ascii "488B")).1 = false ∧
    parseSigString (ascii " 4 ??? e8") = (true, [4, 0, 0, 232], [false, true, true, false]) := by
  decide +kernel

end Botid
