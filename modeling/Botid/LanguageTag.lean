import Botid.JsonReader
import Mathlib.Data.List.DropRight

/-! The language tag of CounterStrikeSharp's `ServerLanguage`: what counts as simplified Chinese. -/
namespace Botid

abbrev hyphen : UInt8 := 45
abbrev underscore : UInt8 := 95

/-- `std::string::find` of a character from a position on; `none` for `npos`. -/
def findChar (s : Bytes) (c : UInt8) (pos : Nat) : Option Nat := ((s.drop pos).idxOf? c).map (pos + ·)

/-- `std::string::substr`, from a position inside the string or at its end. -/
def Bytes.substr (s : Bytes) (pos n : Nat) : Bytes := (s.drop pos).take n

/-- The first loop of `NormalizeLanguageTag`: the place of the first byte that is not blank. -/
def tagStart (tag : Bytes) : Nat := tag.findIdx fun c => !isSpace c

/-- Its second loop, which moves the end backwards. -/
def tagEnd (tag : Bytes) (start : Nat) : Nat → Nat
  | 0 => 0
  | stop + 1 => if start < stop + 1 ∧ isSpace (tag.getD stop 0) then tagEnd tag start stop else stop + 1

def normalizeByte (c : UInt8) : UInt8 := if c = underscore then hyphen else asciiLower c

def normalizeLanguageTag (tag : Bytes) : Bytes :=
  let start := tagStart tag
  let stop := tagEnd tag start tag.length
  (Bytes.substr tag start (stop - start)).map normalizeByte

/-- The subtags that stand for traditional script. -/
def traditionalSubtags : List Bytes := [ascii "tw", ascii "hk", ascii "mo", ascii "hant"]

/-- One turn of the loop over the later subtags; the state is the answer so far and `i`. -/
def subtagTurn (tag : Bytes) (p : Bool × Nat) : (Bool × Nat) × Bool :=
  if p.2 < tag.length then
    let next := (findChar tag hyphen p.2).getD tag.length
    let sub := Bytes.substr tag p.2 (next - p.2)
    if sub ∈ traditionalSubtags then ((false, p.2), false)
    else if next = tag.length then ((true, p.2), false)
    else ((true, next + 1), true)
  else ((true, p.2), false)

def isSimplifiedChinese (tag : Bytes) : Bool :=
  let tag := normalizeLanguageTag tag
  if tag = [] then false
  else
    let dash := findChar tag hyphen 0
    let primary := dash.elim tag fun dash => Bytes.substr tag 0 dash
    if primary ≠ ascii "zh" then false
    else
      let i := dash.elim tag.length fun dash => dash + 1
      (Loop.run (fun p : Bool × Nat => tag.length - p.2) (subtagTurn tag) (true, i)).1

/-- A normalized tag: split at every hyphen, the first subtag is `zh` and no later one traditional. -/
def SimplifiedTag (tag : Bytes) : Prop :=
  (tag.splitOn hyphen).head? = some (ascii "zh") ∧
    ∀ sub ∈ (tag.splitOn hyphen).tail, sub ∉ traditionalSubtags

/-- Two bytes that a tag may hold for one another: letters of either case, a hyphen or an underscore. -/
def Alike (c d : UInt8) : Prop :=
  asciiLower c = asciiLower d ∨ (c = hyphen ∨ c = underscore) ∧ (d = hyphen ∨ d = underscore)

variable {s front rest tag tag' : Bytes} {c d : UInt8} {pos start stop i : Nat}

theorem findChar_eq_none (h : c ∉ s.drop pos) : findChar s c pos = none := by
  rw [findChar, List.idxOf?_eq_none_iff.mpr h]
  rfl

theorem findChar_eq_some (hs : s.drop pos = front ++ c :: rest) (h : c ∉ front) :
    findChar s c pos = some (pos + front.length) := by
  have hidx : (front ++ c :: rest).idxOf? c = some front.length := by
    clear hs
    induction front with
    | nil => simp [List.idxOf?_cons]
    | cons d front ih =>
      rw [List.mem_cons, not_or] at h
      have hne : (d == c) = false := by simpa using Ne.symm h.1
      rw [List.cons_append, List.idxOf?_cons, hne, ih h.2]
      rfl
  rw [findChar, hs, hidx]
  rfl

/-- A turn with another hyphen ahead. -/
theorem subtagTurn_hyphen (hs : tag.drop i = front ++ hyphen :: rest) (h : hyphen ∉ front) :
    subtagTurn tag (true, i) =
      if front ∈ traditionalSubtags then ((false, i), false)
      else ((true, i + front.length + 1), true) := by
  have hlen : tag.length - i = front.length + (rest.length + 1) := by
    rw [← List.length_drop, hs, List.length_append, List.length_cons]
  have hsub : Bytes.substr tag i front.length = front := by
    rw [Bytes.substr, hs, List.take_left]
  rw [subtagTurn, findChar_eq_some hs h]
  dsimp only
  rw [if_pos (by omega), Option.getD_some, Nat.add_sub_cancel_left, hsub, if_neg (by omega : ¬ _ = _)]

/-- The last turn. -/
theorem subtagTurn_last (hi : i < tag.length) (h : hyphen ∉ tag.drop i) :
    subtagTurn tag (true, i) =
      if tag.drop i ∈ traditionalSubtags then ((false, i), false) else ((true, i), false) := by
  have hsub : Bytes.substr tag i (tag.length - i) = tag.drop i := by
    rw [Bytes.substr, ← List.length_drop, List.take_length]
  rw [subtagTurn, findChar_eq_none h]
  dsimp only
  rw [if_pos hi, Option.getD_none, hsub, if_pos rfl]

theorem shrinks_subtagTurn :
    Loop.Shrinks (fun p : Bool × Nat => tag.length - p.2) (subtagTurn tag) := by
  rintro ⟨answer, i⟩ h
  rw [subtagTurn] at h ⊢
  dsimp only at h ⊢
  split at h
  · rename_i hi
    rw [if_pos hi]
    split at h
    · simp at h
    · rename_i hsub
      rw [if_neg hsub]
      split at h
      · simp at h
      · rename_i hend
        rw [if_neg hend]
        have hnext : i ≤ (findChar tag hyphen i).getD tag.length := by
          rw [findChar]
          cases (tag.drop i).idxOf? hyphen with
          | none => exact hi.le
          | some k => exact Nat.le_add_right i k
        dsimp only
        omega
  · simp at h

/-- The loop finds the forbidden subtags that splitting at every hyphen gives. -/
theorem subtagLoop_iff (hi : i ≤ tag.length) :
    (Loop.run (fun p : Bool × Nat => tag.length - p.2) (subtagTurn tag) (true, i)).1 = true ↔
      ∀ sub ∈ (tag.drop i).splitOn hyphen, sub ∉ traditionalSubtags := by
  induction hn : tag.length - i using Nat.strong_induction_on generalizing i with
  | h n ih =>
    subst hn
    by_cases hlt : i < tag.length
    · by_cases hmem : hyphen ∈ tag.drop i
      · obtain ⟨front, rest, hs, hfront⟩ := List.eq_append_cons_of_mem hmem
        have hlen : tag.length - i = front.length + (rest.length + 1) := by
          rw [← List.length_drop, hs, List.length_append, List.length_cons]
        have hrest : tag.drop (i + front.length + 1) = rest := by
          rw [Nat.add_assoc, ← List.drop_drop, hs, ← List.drop_drop, List.drop_left, List.drop_one,
            List.tail_cons]
        have hturn := subtagTurn_hyphen hs hfront
        rw [hs, List.splitOn_append_cons_self_of_not_mem hfront, List.forall_mem_cons]
        by_cases hsub : front ∈ traditionalSubtags
        · rw [if_pos hsub] at hturn
          rw [Loop.run_of_done shrinks_subtagTurn hturn]
          simp [hsub]
        · rw [if_neg hsub] at hturn
          rw [Loop.run_of_again shrinks_subtagTurn hturn, ih _ (by omega) (by omega) rfl, hrest,
            and_iff_right hsub]
      · rw [List.splitOn_eq_singleton hmem, List.forall_mem_singleton]
        have hturn := subtagTurn_last hlt hmem
        by_cases hsub : tag.drop i ∈ traditionalSubtags
        · rw [if_pos hsub] at hturn
          rw [Loop.run_of_done shrinks_subtagTurn hturn]
          simp [hsub]
        · rw [if_neg hsub] at hturn
          rw [Loop.run_of_done shrinks_subtagTurn hturn]
          simp [hsub]
    · have hturn : subtagTurn tag (true, i) = ((true, i), false) := if_neg hlt
      have hempty : ([] : Bytes) ∉ traditionalSubtags := by decide
      rw [Loop.run_of_done shrinks_subtagTurn hturn, List.drop_of_length_le (by omega), List.splitOn_nil,
        List.forall_mem_singleton]
      exact iff_of_true rfl hempty

/-- The second loop stops where the blanks at the end begin. -/
theorem tagEnd_eq (hstart : start ≤ stop) (hstop : stop ≤ tag.length) :
    tagEnd tag start stop =
      start + (((tag.drop start).take (stop - start)).rdropWhile isSpace).length := by
  induction stop with
  | zero =>
    rw [tagEnd, Nat.zero_sub, List.take_zero, List.rdropWhile_nil, List.length_nil]
    omega
  | succ stop ih =>
    rw [tagEnd]
    by_cases hlt : start < stop + 1
    · obtain ⟨n, rfl⟩ : ∃ n, stop = start + n := ⟨stop - start, by omega⟩
      have hlast : (tag.drop start).take (n + 1) =
          (tag.drop start).take n ++ [tag.getD (start + n) 0] := by
        rw [List.take_add_one, List.getElem?_drop, List.getD_eq_getElem?_getD,
          List.getElem?_eq_getElem (by omega)]
        rfl
      rw [show start + n + 1 - start = n + 1 by omega, hlast]
      cases hc : isSpace (tag.getD (start + n) 0) with
      | true =>
        rw [List.rdropWhile_concat_pos _ _ _ hc, if_pos ⟨hlt, rfl⟩, ih (by omega) (by omega),
          Nat.add_sub_cancel_left]
      | false =>
        have hlen : ((tag.drop start).take n).length = n := by
          rw [List.length_take, List.length_drop]
          omega
        rw [List.rdropWhile_concat_neg _ _ _ (by rw [hc]; exact Bool.false_ne_true),
          if_neg (by simp), List.length_append, hlen, List.length_singleton, Nat.add_assoc]
    · have heq : start = stop + 1 := by omega
      rw [if_neg (fun h => hlt h.1), heq, Nat.sub_self, List.take_zero, List.rdropWhile_nil,
        List.length_nil, Nat.add_zero]

/-- The two loops trim the tag. -/
theorem normalizeLanguageTag_eq : normalizeLanguageTag tag = (trimAscii tag).map normalizeByte := by
  have hstart : tagStart tag ≤ tag.length := List.findIdx_le_length
  have hrest : tag.drop (tagStart tag) = tag.dropWhile isSpace :=
    List.dropWhile_eq_drop_findIdx_not.symm
  have hall : (tag.dropWhile isSpace).take (tag.length - tagStart tag) = tag.dropWhile isSpace := by
    rw [← hrest, ← List.length_drop, List.take_length]
  have hend : (tag.dropWhile isSpace).take ((tag.dropWhile isSpace).rdropWhile isSpace).length =
      (tag.dropWhile isSpace).rdropWhile isSpace :=
    (List.prefix_iff_eq_take.mp (List.rdropWhile_prefix isSpace _)).symm
  have htrim : Bytes.substr tag (tagStart tag) (tagEnd tag (tagStart tag) tag.length - tagStart tag) =
      trimAscii tag := by
    rw [tagEnd_eq hstart le_rfl, Nat.add_sub_cancel_left, Bytes.substr, hrest, hall, hend]
    rfl
  rw [normalizeLanguageTag, htrim]

/-- On a normalized tag. -/
theorem isSimplifiedChinese_iff_tag :
    isSimplifiedChinese tag = true ↔ SimplifiedTag ((trimAscii tag).map normalizeByte) := by
  rw [isSimplifiedChinese, normalizeLanguageTag_eq]
  generalize (trimAscii tag).map normalizeByte = tag
  dsimp only
  by_cases hempty : tag = []
  · subst hempty
    rw [if_pos rfl]
    exact iff_of_false Bool.false_ne_true fun h => absurd h.1 (by decide)
  · rw [if_neg hempty, SimplifiedTag]
    by_cases hmem : hyphen ∈ tag
    · obtain ⟨front, rest, rfl, hfront⟩ := List.eq_append_cons_of_mem hmem
      have hdash : findChar (front ++ hyphen :: rest) hyphen 0 = some front.length := by
        rw [@findChar_eq_some _ front rest hyphen 0 List.drop_zero hfront, Nat.zero_add]
      have hsub : Bytes.substr (front ++ hyphen :: rest) 0 front.length = front := by
        rw [Bytes.substr, List.drop_zero, List.take_left]
      have hrest : (front ++ hyphen :: rest).drop (front.length + 1) = rest := by
        rw [← List.drop_drop, List.drop_left, List.drop_one, List.tail_cons]
      rw [hdash, Option.elim_some, Option.elim_some, hsub,
        List.splitOn_append_cons_self_of_not_mem hfront, List.head?_cons, List.tail_cons, Option.some.injEq]
      by_cases hzh : front = ascii "zh"
      · rw [if_neg (not_not.mpr hzh), subtagLoop_iff (by simp), hrest, and_iff_right hzh]
      · rw [if_pos hzh]
        exact iff_of_false Bool.false_ne_true fun h => hzh h.1
    · have hdash : findChar tag hyphen 0 = none := findChar_eq_none (by rwa [List.drop_zero])
      rw [hdash, Option.elim_none, Option.elim_none, List.splitOn_eq_singleton hmem, List.head?_cons,
        List.tail_cons, Option.some.injEq]
      by_cases hzh : tag = ascii "zh"
      · have hturn : subtagTurn tag (true, tag.length) = ((true, tag.length), false) :=
          if_neg (Nat.lt_irrefl _)
        rw [if_neg (not_not.mpr hzh), Loop.run_of_done shrinks_subtagTurn hturn]
        exact iff_of_true rfl ⟨hzh, List.forall_mem_nil _⟩
      · rw [if_pos hzh]
        exact iff_of_false Bool.false_ne_true fun h => hzh h.1

theorem isSpace_normalizeByte : isSpace (normalizeByte c) = isSpace c :=
  byte_induction (P := fun c => isSpace (normalizeByte c) = isSpace c) (by decide +kernel) c

theorem normalizeByte_eq_asciiLower : normalizeByte c = normalizeByte (asciiLower c) :=
  byte_induction (P := fun c => normalizeByte c = normalizeByte (asciiLower c)) (by decide +kernel) c

theorem Alike.normalizeByte_eq (h : Alike c d) : normalizeByte c = normalizeByte d := by
  rcases h with hcase | ⟨hc, hd⟩
  · rw [normalizeByte_eq_asciiLower, hcase, ← normalizeByte_eq_asciiLower]
  · have hhyphen : ∀ c, c = hyphen ∨ c = underscore → normalizeByte c = hyphen := by
      rintro c (rfl | rfl) <;> rfl
    rw [hhyphen c hc, hhyphen d hd]

/-- Trimming looks at nothing that normalizing changes. -/
theorem trimAscii_map_normalizeByte :
    trimAscii (tag.map normalizeByte) = (trimAscii tag).map normalizeByte := by
  have hspace : isSpace ∘ normalizeByte = isSpace := funext fun _ => isSpace_normalizeByte
  rw [trimAscii, trimAscii, List.dropWhile_map, hspace, ← List.map_reverse, List.dropWhile_map, hspace,
    List.map_reverse]

theorem dropWhile_append_of_blank {before : Bytes} (h : ∀ c ∈ before, isSpace c = true) :
    (before ++ s).dropWhile isSpace = s.dropWhile isSpace := by
  induction before with
  | nil => rfl
  | cons c before ih =>
    rw [List.forall_mem_cons] at h
    rw [List.cons_append, List.dropWhile_cons_of_pos h.1, ih h.2]

/-- Blanks around a text are trimmed away. -/
theorem trimAscii_blank {before after : Bytes} (h : ∀ c ∈ before ++ after, isSpace c = true) :
    trimAscii (before ++ s ++ after) = trimAscii s := by
  rw [List.forall_mem_append] at h
  have hafter : ∀ c ∈ after.reverse, isSpace c = true := by simpa using h.2
  rw [trimAscii, trimAscii, List.append_assoc, dropWhile_append_of_blank h.1]
  by_cases hs : ∀ c ∈ s, isSpace c = true
  · have hboth : ∀ c ∈ s ++ after, isSpace c = true := List.forall_mem_append.mpr ⟨hs, h.2⟩
    rw [List.dropWhile_eq_nil_iff.mpr hs, List.dropWhile_eq_nil_iff.mpr hboth]
  · have hne : s.dropWhile isSpace ≠ [] := fun hnil => hs (List.dropWhile_eq_nil_iff.mp hnil)
    rw [List.dropWhile_append, List.isEmpty_eq_false_iff.mpr hne, if_neg Bool.false_ne_true,
      List.reverse_append, dropWhile_append_of_blank hafter]

/-- The answer is that of the subtag test, so letter case, the choice between hyphen and underscore and
blanks around the tag make no difference to it. -/
theorem isSimplifiedChinese_is_subtag_test :
    (∀ tag, isSimplifiedChinese tag = true ↔ SimplifiedTag ((trimAscii tag).map normalizeByte)) ∧
      (∀ tag tag', List.Forall₂ Alike tag tag' → isSimplifiedChinese tag' = isSimplifiedChinese tag) ∧
      ∀ before tag after, (∀ c ∈ before ++ after, isSpace c = true) →
        isSimplifiedChinese (before ++ tag ++ after) = isSimplifiedChinese tag := by
  refine ⟨fun _ => isSimplifiedChinese_iff_tag, fun tag tag' h => ?_, fun before tag after h => ?_⟩
  · have hmap : tag.map normalizeByte = tag'.map normalizeByte := by
      induction h with
      | nil => rfl
      | cons hhead _ ih => rw [List.map_cons, List.map_cons, hhead.normalizeByte_eq, ih]
    rw [Bool.eq_iff_iff, isSimplifiedChinese_iff_tag, isSimplifiedChinese_iff_tag,
      ← trimAscii_map_normalizeByte, ← trimAscii_map_normalizeByte, hmap]
  · rw [Bool.eq_iff_iff, isSimplifiedChinese_iff_tag, isSimplifiedChinese_iff_tag, trimAscii_blank h]

/-- Tags with hyphens at their end and in a row; a forbidden word as a part of a subtag is no subtag. -/
example : [ascii " ZH_Hans_CN ", ascii "zh-", ascii "zh--cn", ascii "zh-twx"].all isSimplifiedChinese ∧
    [ascii "zh-Hant-CN", ascii "-zh", ascii "zhx", ascii "zh--TW-", []].all fun tag =>
      !isSimplifiedChinese tag := by
  decide +kernel

end Botid
