import Botid.IndexedReader
import Botid.JsonText
import Mathlib.Data.List.DropRight

/-! The indexed reader keeps step with the one over suffixes, within its bounds: scans and skippers. -/
namespace Botid

open Indexed

variable {α β : Type} {s : Bytes} {i j bound : Nat} {c : UInt8} {p : UInt8 → Bool}

theorem ok_bind {x : α} {f : α → Except Fault β} : (Except.ok x >>= f) = f x := rfl

/-- The indexed reader is at the end of its call where the other one is, and not beyond the bound. -/
def Tracks (s : Bytes) (bound : Nat) (x : Except Fault (α × Nat)) (y : α × Bytes) : Prop :=
  ∃ j, x = .ok (y.1, j) ∧ s.drop j = y.2 ∧ j ≤ bound

/-- The same of a call that only moves the cursor. -/
def Moves (s : Bytes) (bound : Nat) (x : Except Fault Nat) (rest : Bytes) : Prop :=
  ∃ j, x = .ok j ∧ s.drop j = rest ∧ j ≤ bound

/-- The same of one turn of a loop. -/
def TracksTurn (s : Bytes) (bound : Nat) (x : Except Fault ((α × Nat) × Bool))
    (y : (α × Bytes) × Bool) : Prop :=
  ∃ j, x = .ok ((y.1.1, j), y.2) ∧ s.drop j = y.1.2 ∧ j ≤ bound

theorem charAt_eq (hi : i ≤ s.length) : charAt s i = .ok (peek (s.drop i)) := by
  rw [charAt, if_pos hi, peek, List.headD_eq_head?_getD, List.head?_drop, List.getD_eq_getElem?_getD]

theorem matchesAt_nil (hs : s.drop i = []) : matchesAt p s i = .ok false := by
  rw [matchesAt, if_neg (by have := List.drop_eq_nil_iff.mp hs; omega)]
  rfl

theorem lt_of_drop_eq_cons {t : Bytes} (hs : s.drop i = c :: t) : i < s.length := by
  by_contra h
  rw [List.drop_eq_nil_iff.mpr (by omega)] at hs
  simp at hs

theorem drop_succ_of_drop {t : Bytes} (hs : s.drop i = c :: t) : s.drop (i + 1) = t := by
  rw [← List.drop_drop, hs]
  rfl

theorem matchesAt_cons {t : Bytes} (hs : s.drop i = c :: t) : matchesAt p s i = .ok (p c) := by
  have hi := lt_of_drop_eq_cons hs
  rw [matchesAt, if_pos hi, charAt_eq (by omega), hs]
  rfl

/-- Any loop whose turns keep step keeps step, and the fuel is enough. -/
theorem tracks_loop {turn : α × Nat → Except Fault ((α × Nat) × Bool)}
    {body : α × Bytes → (α × Bytes) × Bool} {fuel : Nat} {x : α}
    (hturn : ∀ x i, i ≤ bound → TracksTurn s bound (turn (x, i)) (body (x, s.drop i)))
    (hshrinks : Loop.Shrinks (fun p => p.2.length) body) (hi : i ≤ bound)
    (hfuel : (s.drop i).length < fuel) :
    Tracks s bound (loop turn fuel (x, i)) (Loop.run (fun p => p.2.length) body (x, s.drop i)) := by
  induction fuel generalizing x i with
  | zero => omega
  | succ fuel ih =>
    obtain ⟨j, hj, hdrop, hle⟩ := hturn x i hi
    rw [loop, hj, ok_bind]
    cases hagain : (body (x, s.drop i)).2 with
    | true =>
      have hbody : body (x, s.drop i) = (((body (x, s.drop i)).1.1, s.drop j), true) := by
        rw [hdrop, ← hagain]
      have hless : (s.drop j).length < (s.drop i).length := by
        have := hshrinks (x, s.drop i) hagain
        rwa [hbody] at this
      rw [Loop.run_of_again hshrinks hbody, if_pos rfl]
      exact ih hle (by omega)
    | false =>
      have hbody : body (x, s.drop i) = (((body (x, s.drop i)).1.1, s.drop j), false) := by
        rw [hdrop, ← hagain]
      rw [Loop.run_of_done hshrinks hbody, if_neg (by simp)]
      exact ⟨j, rfl, rfl, hle⟩

theorem drop_length_takeWhile {t : Bytes} : t.drop (t.takeWhile p).length = t.dropWhile p := by
  induction t with
  | nil => rfl
  | cons c t ih =>
    cases hc : p c with
    | true => rw [List.takeWhile_cons_of_pos hc, List.dropWhile_cons_of_pos hc]; exact ih
    | false =>
      rw [List.takeWhile_cons_of_neg (by simp [hc]), List.dropWhile_cons_of_neg (by simp [hc])]
      rfl

/-- A scan stops where `dropWhile` does, having folded what it passed. -/
theorem scan_eq {f : β → UInt8 → β} {v : β} : scan p f s v i =
    .ok (((s.drop i).takeWhile p).foldl f v, i + ((s.drop i).takeWhile p).length) := by
  rw [scan]
  have hfuel : (s.drop i).length < s.length + 2 := by
    rw [List.length_drop]
    omega
  generalize s.length + 2 = fuel at hfuel
  induction fuel generalizing i v with
  | zero => omega
  | succ fuel ih =>
    cases hs : s.drop i with
    | nil =>
      simp only [loop, matchesAt_nil hs, ok_bind]
      rfl
    | cons c t =>
      have hi := lt_of_drop_eq_cons hs
      have hnext := drop_succ_of_drop hs
      simp only [loop, matchesAt_cons hs, charAt_eq hi.le, hs, peek_cons, ok_bind]
      cases hc : p c with
      | true =>
        have hscan := @ih (i + 1) (f v c) (by rw [hnext]; rw [hs, List.length_cons] at hfuel; omega)
        rw [hnext] at hscan
        rw [List.takeWhile_cons_of_pos hc, List.foldl_cons, List.length_cons,
          show i + ((t.takeWhile p).length + 1) = i + 1 + (t.takeWhile p).length by omega, ← hscan]
        rfl
      | false =>
        rw [List.takeWhile_cons_of_neg (by simp [hc])]
        rfl

theorem length_takeWhile_drop : i + ((s.drop i).takeWhile p).length ≤ max i s.length := by
  have hlen : ((s.drop i).takeWhile p).length ≤ (s.drop i).length :=
    (List.takeWhile_prefix p).length_le
  rw [List.length_drop] at hlen
  omega

theorem tracks_scan {f : β → UInt8 → β} {v : β} : Tracks s (max i s.length) (scan p f s v i)
    (((s.drop i).takeWhile p).foldl f v, (s.drop i).dropWhile p) :=
  ⟨_, scan_eq, by rw [← List.drop_drop, drop_length_takeWhile], length_takeWhile_drop⟩

theorem scanPast_eq : scanPast p s i = .ok (i + ((s.drop i).takeWhile p).length) := by
  rw [scanPast, scan_eq]
  rfl

theorem moves_scanPast : Moves s (max i s.length) (scanPast p s i) ((s.drop i).dropWhile p) :=
  ⟨_, scanPast_eq, by rw [← List.drop_drop, drop_length_takeWhile], length_takeWhile_drop⟩

theorem tracks_skipWhitespace : Tracks s (max i s.length) (Indexed.skipWhitespace s i)
    (decide (skipWhitespace (s.drop i) ≠ []), skipWhitespace (s.drop i)) := by
  obtain ⟨j, hj, hdrop, hle⟩ := @moves_scanPast s i isSpace
  refine ⟨j, ?_, hdrop, hle⟩
  have hend : decide (j < s.length) = decide (skipWhitespace (s.drop i) ≠ []) := by
    rw [skipWhitespace, ← hdrop]
    simp
  rw [Indexed.skipWhitespace, hj, ok_bind, hend]
  rfl

theorem tracks_matchChar : Tracks s (max i s.length) (Indexed.matchChar s c i)
    (matchChar c (s.drop i)) := by
  obtain ⟨j, hj, hdrop, hle⟩ := @tracks_skipWhitespace s i
  simp only at hdrop
  rw [Indexed.matchChar, hj, ok_bind, matchChar, ← hdrop]
  cases hs : s.drop j with
  | nil =>
    rw [matchesAt_nil hs]
    exact ⟨j, rfl, hs, hle⟩
  | cons d t =>
    have hlt := lt_of_drop_eq_cons hs
    rw [matchesAt_cons hs, ok_bind]
    by_cases hd : d = c
    · simp only [hd, decide_true, if_true]
      exact ⟨j + 1, rfl, drop_succ_of_drop hs, by omega⟩
    · simp only [hd, decide_false, if_false]
      exact ⟨j, rfl, hs, hle⟩

theorem lt_of_matchChar (h : (matchChar c (s.drop i)).1 = true) : i < s.length := by
  by_contra hle
  rw [List.drop_eq_nil_iff.mpr (by omega)] at h
  exact absurd h (by simp [matchChar, skipWhitespace])

theorem take_length_takeWhile {t : Bytes} : t.take (t.takeWhile p).length = t.takeWhile p :=
  (List.prefix_iff_eq_take.mp (List.takeWhile_prefix p)).symm

theorem tracks_readString : Tracks s (max i s.length) (Indexed.readString s i)
    (readString (s.drop i)) := by
  obtain ⟨start, hstart, hdrop, hle⟩ := @tracks_matchChar s i quote
  rw [Indexed.readString, hstart, ok_bind, readString]
  cases hmatch : matchChar quote (s.drop i) with
  | mk found rest =>
    rw [hmatch] at hdrop
    simp only at hdrop
    cases found with
    | false => exact ⟨start, rfl, hdrop, hle⟩
    | true =>
      have hlt : i < s.length := lt_of_matchChar (by rw [hmatch])
      have hbound := @length_takeWhile_drop s start (· ≠ quote)
      have hsubstr : substr s start (start + ((s.drop start).takeWhile (· ≠ quote)).length - start) =
          .ok ((s.drop start).takeWhile (· ≠ quote)) := by
        rw [substr, if_pos (by omega), Nat.add_sub_cancel_left, take_length_takeWhile]
      simp only [if_true, scanPast_eq, ok_bind, hsubstr, ← hdrop]
      have hstop : s.drop (start + ((s.drop start).takeWhile (· ≠ quote)).length) =
          (s.drop start).dropWhile (· ≠ quote) := by
        rw [← List.drop_drop, drop_length_takeWhile]
      generalize start + ((s.drop start).takeWhile (· ≠ quote)).length = stop at *
      -- the closing quote is stepped over where there is one
      by_cases hend : stop < s.length
      · rw [if_pos hend]
        exact ⟨stop + 1, rfl, by rw [← List.drop_drop, hstop], by omega⟩
      · rw [if_neg hend]
        refine ⟨stop, rfl, ?_, by omega⟩
        rw [List.drop_eq_nil_iff.mpr (by omega)] at hstop
        rw [← hstop]
        exact List.drop_eq_nil_iff.mpr (by omega)

theorem tracks_readUInt64 : Tracks s (max i s.length) (Indexed.readUInt64 s i)
    (readUInt64 (s.drop i)) := by
  obtain ⟨j, hj, hdrop, hle⟩ := @tracks_skipWhitespace s i
  obtain ⟨k, hk, hrest, hle'⟩ := @tracks_scan _ s j isDigit (fun v c => v * 10 + (c - 48).toUInt64) 0
  simp only at hdrop
  rw [hdrop] at hk hrest
  rw [Indexed.readUInt64, hj, ok_bind]
  exact ⟨k, hk, hrest, by omega⟩

/-- A value read and then converted. -/
theorem Tracks.map {x : Except Fault (α × Nat)} {y : α × Bytes} (g : α → β) (h : Tracks s bound x y) :
    Tracks s bound (x >>= fun r => pure (g r.1, r.2)) (g y.1, y.2) := by
  obtain ⟨j, rfl, hdrop, hle⟩ := h
  exact ⟨j, rfl, hdrop, hle⟩

theorem tracks_readInt : Tracks s (max i s.length) (Indexed.readInt s i) (readInt (s.drop i)) :=
  tracks_readUInt64.map fun v => v.toUInt32.toInt32.toInt

theorem tracks_readUInt32 : Tracks s (max i s.length) (Indexed.readUInt32 s i)
    (readUInt32 (s.drop i)) :=
  tracks_readUInt64.map UInt64.toUInt32

theorem tracks_readDouble : Tracks s (max i s.length) (Indexed.readDouble s i)
    (readDouble (s.drop i)) := by
  obtain ⟨j, hj, hdrop, hle⟩ := @tracks_skipWhitespace s i
  obtain ⟨k, hk, hrest, hle'⟩ := @tracks_scan _ s j isDigit
    (fun v c => v * 10.0 + (c - 48).toFloat) 0.0
  simp only at hdrop hrest
  rw [hdrop] at hk hrest
  rw [Indexed.readDouble, hj, ok_bind, hk, ok_bind, readDouble]
  dsimp only
  rw [← hrest]
  split
  · rename_i t hs
    have hlt := lt_of_drop_eq_cons hs
    obtain ⟨l, hl, hlast, hle''⟩ := @tracks_scan _ s (k + 1) isDigit
      (fun (p : Float × Float) c => (p.1 + (c - 48).toFloat * p.2, p.2 * 0.1))
      (((skipWhitespace (s.drop i)).takeWhile isDigit).foldl
        (fun v c => v * 10.0 + (c - 48).toFloat) 0.0, 0.1)
    rw [drop_succ_of_drop hs] at hl hlast
    rw [matchesAt_cons hs, ok_bind, decide_eq_true rfl, if_pos rfl, hl]
    exact ⟨l, rfl, hlast, by omega⟩
  · rename_i hne
    have hdot : matchesAt (· = 46) s k = .ok false := by
      cases hs : s.drop k with
      | nil => exact matchesAt_nil hs
      | cons d t =>
        rw [matchesAt_cons hs, decide_eq_false]
        rintro rfl
        exact hne t hs
    rw [hdot]
    exact ⟨k, rfl, rfl, by omega⟩

/-- The second loop of `TrimAscii` stops where the blanks at the end begin. -/
theorem trimEnd_eq {start stop fuel : Nat} (hstart : start ≤ stop) (hstop : stop ≤ s.length)
    (hfuel : stop - start < fuel) :
    loop (fun stop => do
      if start < stop then
        let c ← charAt s (stop - 1)
        if isSpace c then pure (stop - 1, true) else pure (stop, false)
      else pure (stop, false)) fuel stop =
      .ok (start + (((s.drop start).take (stop - start)).rdropWhile isSpace).length) := by
  induction fuel generalizing stop with
  | zero => omega
  | succ fuel ih =>
    rw [loop]
    by_cases hlt : start < stop
    · obtain ⟨n, rfl⟩ : ∃ n, stop = start + n + 1 := ⟨stop - start - 1, by omega⟩
      have hlast : (s.drop start).take (n + 1) = (s.drop start).take n ++ [s.getD (start + n) 0] := by
        rw [List.take_add_one, List.getElem?_drop, List.getD_eq_getElem?_getD,
          List.getElem?_eq_getElem (by omega)]
        rfl
      rw [if_pos hlt, Nat.add_sub_cancel, charAt, if_pos (by omega), ok_bind,
        show start + n + 1 - start = n + 1 by omega, hlast]
      cases hc : isSpace (s.getD (start + n) 0) with
      | true =>
        rw [List.rdropWhile_concat_pos _ _ _ hc]
        have := @ih (start + n) (by omega) (by omega) (by omega)
        rw [Nat.add_sub_cancel_left] at this
        exact this
      | false =>
        have hlen : ((s.drop start).take n).length = n := by
          rw [List.length_take, List.length_drop]
          omega
        rw [List.rdropWhile_concat_neg _ _ _ (by rw [hc]; exact Bool.false_ne_true),
          List.length_append, hlen, List.length_singleton, ← Nat.add_assoc]
        rfl
    · rw [if_neg hlt, show stop - start = 0 by omega, show stop = start by omega]
      rfl

theorem trimAscii_eq : Indexed.trimAscii s = .ok (trimAscii s) := by
  have hstart := @length_takeWhile_drop s 0 isSpace
  rw [List.drop_zero, Nat.zero_add] at hstart
  have hrest : s.drop (s.takeWhile isSpace).length = s.dropWhile isSpace := drop_length_takeWhile
  have hall : (s.dropWhile isSpace).take (s.length - (s.takeWhile isSpace).length) =
      s.dropWhile isSpace :=
    List.take_of_length_le (by rw [← hrest, List.length_drop])
  have hend : (s.dropWhile isSpace).take ((s.dropWhile isSpace).rdropWhile isSpace).length =
      (s.dropWhile isSpace).rdropWhile isSpace :=
    (List.prefix_iff_eq_take.mp (List.rdropWhile_prefix isSpace _)).symm
  rw [Indexed.trimAscii, scanPast_eq, ok_bind, List.drop_zero, Nat.zero_add,
    trimEnd_eq (by omega) le_rfl (by omega), ok_bind, substr, if_pos (by omega), hrest, hall,
    Nat.add_sub_cancel_left, hend]
  rfl

theorem truncateUtf8_eq {n : Nat} : Indexed.truncateUtf8 s n = .ok (truncateUtf8 s n) := by
  rw [Indexed.truncateUtf8, truncateUtf8]
  split
  · rfl
  · have hcut : ∀ fuel i, i < fuel → i ≤ s.length → loop (fun i => do
        if 0 < i then
          let c ← charAt s i
          if c &&& 0xC0 = 0x80 then pure (i - 1, true) else pure (i, false)
        else pure (i, false)) fuel i = .ok (utf8Cut s i) := by
      intro fuel
      induction fuel with
      | zero => omega
      | succ fuel ih =>
        intro i hi hle
        rw [loop]
        cases i with
        | zero => rfl
        | succ i =>
          rw [if_pos (by omega), charAt, if_pos hle, ok_bind, utf8Cut, Nat.add_sub_cancel]
          split
          · exact ih i (by omega) (by omega)
          · rfl
    rw [hcut _ _ (by omega) (by omega), ok_bind, substr, if_pos (by omega)]
    rfl

theorem tracks_skipNestedTurn {n : Nat} (hi : i ≤ s.length) :
    TracksTurn s s.length (Indexed.skipNestedTurn s (n, i)) (skipNestedTurn (n, s.drop i)) := by
  have hmore : ∀ k d, decide (k < s.length ∧ 0 < d) = decide (s.drop k ≠ [] ∧ 0 < d) := by
    intro k d
    simp
  cases hs : s.drop i with
  | nil =>
    rw [Indexed.skipNestedTurn, if_pos (List.drop_eq_nil_iff.mp hs)]
    exact ⟨i, rfl, hs, hi⟩
  | cons c t =>
    have hlt := lt_of_drop_eq_cons hs
    rw [Indexed.skipNestedTurn, if_neg (by simpa using hlt), charAt_eq hi, hs, peek_cons, ok_bind,
      skipNestedTurn]
    dsimp only
    by_cases hc : c = quote
    · obtain ⟨j, hj, hdrop, hle⟩ := @tracks_readString s i
      rw [if_pos hc, if_pos hc, hj, ok_bind, hmore, ← hs, ← hdrop]
      exact ⟨j, rfl, rfl, by omega⟩
    · have hnext := drop_succ_of_drop hs
      rw [if_neg hc, if_neg hc, hmore, hnext]
      split
      · exact ⟨i + 1, rfl, hnext, hlt⟩
      · split
        · exact ⟨i + 1, rfl, hnext, hlt⟩
        · exact ⟨i + 1, rfl, hnext, hlt⟩

theorem moves_skipJsonValue (hi : i ≤ s.length) :
    Moves s s.length (Indexed.skipJsonValue s i) (skipJsonValue (s.drop i)) := by
  obtain ⟨j, hj, hdrop, hle⟩ := @tracks_skipWhitespace s i
  simp only at hdrop
  rw [Indexed.skipJsonValue, hj, ok_bind, skipJsonValue, ← hdrop]
  dsimp only
  by_cases hend : s.length ≤ j
  · rw [if_pos hend, if_pos (List.drop_eq_nil_iff.mpr hend)]
    exact ⟨j, rfl, rfl, by omega⟩
  · rw [if_neg hend, if_neg (by simpa using hend), charAt_eq (by omega), ok_bind]
    split
    · obtain ⟨k, hk, hrest, hle'⟩ := @tracks_readString s j
      rw [hk]
      exact ⟨k, rfl, hrest, by omega⟩
    · split
      · obtain ⟨k, hk, hrest, hle'⟩ := @tracks_loop _ s j s.length _ _ (s.length + 2) 0
          (fun n k hk => @tracks_skipNestedTurn s k n hk) shrinks_skipNestedTurn (by omega)
          (by rw [List.length_drop]; omega)
        rw [hk]
        exact ⟨k, rfl, hrest, hle'⟩
      · have h := @moves_scanPast s j (fun c => c ≠ comma ∧ c ≠ closeBrace ∧ c ≠ closeBracket)
        rwa [Nat.max_eq_right (by omega)] at h

/-- A loop over brackets stops where the recursion does, or where it started when that is behind. -/
theorem moves_skipBrackets {opening closing : UInt8} : Moves s (max i s.length)
    (Indexed.skipBrackets opening closing s i) (skipBrackets opening closing 1 (s.drop i)) := by
  have hloop : ∀ fuel n i, (s.drop i).length < fuel → Moves s (max i s.length)
      (loop (fun (p : Nat × Nat) => do
        if p.2 < s.length ∧ 0 < p.1 then
          let c ← charAt s p.2
          pure ((if c = opening then p.1 + 1 else if c = closing then p.1 - 1 else p.1, p.2 + 1), true)
        else pure (p, false)) fuel (n, i) >>= fun p => pure p.2)
      (skipBrackets opening closing n (s.drop i)) := by
    intro fuel
    induction fuel with
    | zero => omega
    | succ fuel ih =>
      intro n i hfuel
      rw [loop]
      cases n with
      | zero =>
        rw [if_neg (by simp), skipBrackets]
        exact ⟨i, rfl, rfl, by omega⟩
      | succ n =>
        cases hs : s.drop i with
        | nil =>
          have hend := List.drop_eq_nil_iff.mp hs
          rw [if_neg (by omega), skipBrackets]
          exact ⟨i, rfl, hs, by omega⟩
        | cons c t =>
          have hlt := lt_of_drop_eq_cons hs
          have hnext := drop_succ_of_drop hs
          rw [hs, List.length_cons] at hfuel
          obtain ⟨j, hj, hdrop, hle⟩ := ih
            (if c = opening then n + 2 else if c = closing then n else n + 1) (i + 1)
            (by rw [hnext]; omega)
          rw [if_pos ⟨hlt, by omega⟩, charAt_eq hlt.le, hs, peek_cons, skipBrackets, ← hnext]
          exact ⟨j, hj, hdrop, by omega⟩
  exact hloop _ _ _ (by rw [List.length_drop]; omega)

theorem moves_skipBlockValue (hi : i ≤ s.length) :
    Moves s s.length (Indexed.skipBlockValue s i) (skipBlockValue (s.drop i)) := by
  rw [Indexed.skipBlockValue, charAt_eq hi, ok_bind, skipBlockValue]
  split
  · have h := @moves_skipBrackets s i openBrace closeBrace
    rwa [Nat.max_eq_right hi] at h
  · split
    · have h := @moves_skipBrackets s i openBracket closeBracket
      rwa [Nat.max_eq_right hi] at h
    · have h := @moves_scanPast s i insideScalar
      rwa [Nat.max_eq_right hi] at h

/-- The loop of `Load` that steps before it looks. Its cursor can end one place behind the text. -/
theorem moves_skipTopBrackets {opening closing : UInt8} (hi : i < s.length) : Moves s (s.length + 1)
    (Indexed.skipTopBrackets opening closing s i)
    ((skipBrackets opening closing 1 (s.drop (i + 1))).drop 1) := by
  have hloop : ∀ fuel n i, i < s.length → (s.drop i).length < fuel → Moves s (s.length + 1)
      (loop (fun (p : Nat × Nat) => do
        let i := p.2 + 1
        if i < s.length ∧ 0 < p.1 then
          let c ← charAt s i
          pure ((if c = opening then p.1 + 1 else if c = closing then p.1 - 1 else p.1, i), true)
        else pure ((p.1, i), false)) fuel (n, i) >>= fun p => pure (p.2 + 1))
      ((skipBrackets opening closing n (s.drop (i + 1))).drop 1) := by
    intro fuel
    induction fuel with
    | zero => omega
    | succ fuel ih =>
      intro n i hi hfuel
      rw [loop]
      cases n with
      | zero =>
        rw [if_neg (by simp), skipBrackets, List.drop_drop]
        exact ⟨i + 2, rfl, rfl, by omega⟩
      | succ n =>
        cases hs : s.drop (i + 1) with
        | nil =>
          have hend := List.drop_eq_nil_iff.mp hs
          rw [if_neg (by omega), skipBrackets]
          exact ⟨i + 2, rfl, List.drop_eq_nil_iff.mpr (by omega), by omega⟩
        | cons c t =>
          have hlt := lt_of_drop_eq_cons hs
          have hnext := drop_succ_of_drop hs
          rw [List.length_drop] at hfuel
          obtain ⟨j, hj, hdrop, hle⟩ := ih
            (if c = opening then n + 2 else if c = closing then n else n + 1) (i + 1) hlt
            (by rw [List.length_drop]; omega)
          rw [if_pos ⟨hlt, by omega⟩, charAt_eq hlt.le, hs, peek_cons, skipBrackets, ← hnext]
          exact ⟨j, hj, hdrop, hle⟩
  exact hloop _ _ _ hi (by rw [List.length_drop]; omega)

theorem moves_skipTopValue (hi : i ≤ s.length) :
    Moves s (s.length + 1) (Indexed.skipTopValue s i) (skipTopValue (s.drop i)) := by
  have hlt : peek (s.drop i) ≠ 0 → i < s.length := by
    intro h
    by_contra hge
    rw [List.drop_eq_nil_iff.mpr (by omega)] at h
    exact h rfl
  rw [Indexed.skipTopValue, charAt_eq hi, ok_bind, skipTopValue, List.drop_drop]
  split
  · rename_i hc
    exact moves_skipTopBrackets (hlt (by rw [hc]; decide))
  · split
    · rename_i hc
      exact moves_skipTopBrackets (hlt (by rw [hc]; decide))
    · obtain ⟨j, hj, hdrop, hle⟩ := @moves_scanPast s i insideScalar
      exact ⟨j, hj, hdrop, by omega⟩

end Botid
