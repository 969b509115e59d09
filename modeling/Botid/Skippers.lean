import Botid.JsonText

/-! Where the hand-written skippers stop: behind a value, or somewhere inside it. -/
namespace Botid

variable {s u v ws X : Bytes} {c : UInt8}

/-- Value text that the scalar skippers cross: no comma, no closing brace, and no opening bracket for
a first byte. -/
def ScalarText (v : Bytes) : Prop :=
  (∀ c ∈ v, insideScalar c = true) ∧ peek v ≠ openBrace ∧ peek v ≠ openBracket

/-- Numbers, literals and blanks: no byte that any skipper looks for. -/
def PlainText (v : Bytes) : Prop :=
  ∀ c ∈ v, insideScalar c = true ∧ c ≠ openBrace ∧ c ≠ openBracket

theorem PlainText.scalarText (h : PlainText v) : ScalarText v := by
  refine ⟨fun c hc => (h c hc).1, ?_⟩
  cases v with
  | nil => exact ⟨by decide, by decide⟩
  | cons d v => exact (h d List.mem_cons_self).2

theorem PlainText.suffix (h : PlainText v) (hs : s <:+ v) : PlainText s :=
  fun c hc => h c (hs.subset hc)

theorem not_insideScalar (hc : c = comma ∨ c = closeBrace) : insideScalar c = false := by
  rcases hc with rfl | rfl <;> decide

/-- Seen from outside, such a value starts with no bracket either. -/
theorem ScalarText.peek_append (h : ScalarText v) (hc : c = comma ∨ c = closeBrace) :
    peek (v ++ c :: X) ≠ openBrace ∧ peek (v ++ c :: X) ≠ openBracket := by
  cases v with
  | nil =>
    rw [List.nil_append, peek_cons]
    rcases hc with rfl | rfl <;> decide
  | cons d v => exact h.2

theorem ScalarText.skipBlockValue (h : ScalarText v) (hc : c = comma ∨ c = closeBrace) :
    skipBlockValue (v ++ c :: X) = c :: X := by
  rw [Botid.skipBlockValue, if_neg (h.peek_append hc).1, if_neg (h.peek_append hc).2,
    dropWhile_of_forall h.1 (not_insideScalar hc)]

theorem ScalarText.skipTopValue (h : ScalarText v) (hc : c = comma ∨ c = closeBrace) :
    skipTopValue (v ++ c :: X) = c :: X := by
  rw [Botid.skipTopValue, if_neg (h.peek_append hc).1, if_neg (h.peek_append hc).2,
    dropWhile_of_forall h.1 (not_insideScalar hc)]

/-- A loop that counts one kind of brackets is back at depth zero with the last byte. -/
def closesAtEnd (opening closing : UInt8) : Nat → Bytes → Bool
  | 0, s => s = []
  | _ + 1, [] => false
  | d + 1, c :: s =>
    closesAtEnd opening closing (if c = opening then d + 2 else if c = closing then d else d + 1) s

theorem skipBrackets_append {opening closing : UInt8} {n : Nat}
    (h : closesAtEnd opening closing n u = true) : skipBrackets opening closing n (u ++ X) = X := by
  induction u generalizing n with
  | nil =>
    cases n with
    | zero => rw [List.nil_append, skipBrackets]
    | succ n => simp [closesAtEnd] at h
  | cons c u ih =>
    cases n with
    | zero => simp [closesAtEnd] at h
    | succ n => exact ih h

/-- An object or array right behind the colon, whose own brackets balance byte by byte and which a
blank separates from what follows. -/
inductive BracketText : Bytes → Prop
  | object {u ws : Bytes} {c : UInt8} (closes : closesAtEnd openBrace closeBrace 1 u = true)
      (blank : Blank (c :: ws)) : BracketText (openBrace :: (u ++ c :: ws))
  | array {u ws : Bytes} {c : UInt8} (closes : closesAtEnd openBracket closeBracket 1 u = true)
      (blank : Blank (c :: ws)) : BracketText (openBracket :: (u ++ c :: ws))

/-- The blank takes the byte that the skipper steps over too many. -/
theorem BracketText.skipTopValue (h : BracketText v) (hc : isSpace c = false) :
    skipWhitespace (skipTopValue (v ++ c :: X)) = c :: X := by
  cases h with
  | object closes blank =>
    rw [Botid.skipTopValue, List.cons_append, peek_cons, if_pos rfl, List.drop_succ_cons,
      List.drop_zero, List.append_assoc, skipBrackets_append closes]
    exact skipWhitespace_blank (fun d hd => blank d (List.mem_cons_of_mem _ hd)) hc
  | array closes blank =>
    rw [Botid.skipTopValue, List.cons_append, peek_cons, if_neg (by decide), if_pos rfl,
      List.drop_succ_cons, List.drop_zero, List.append_assoc, skipBrackets_append closes]
    exact skipWhitespace_blank (fun d hd => blank d (List.mem_cons_of_mem _ hd)) hc

/-- The ways to write an unknown top-level value that `Load` steps over. -/
def TopSkips (v : Bytes) : Prop := ScalarText v ∨ BracketText v

theorem isDigit_separator (hc : c = comma ∨ c = closeBrace) : isDigit c = false := by
  rcases hc with rfl | rfl <;> decide

/-- No comma follows where a skipper stops, so the loop it belongs to ends there. -/
def EndsAt (skipped : Bytes) : Prop := (matchChar comma skipped).1 = false

/-- Where a loop that ends in this text leaves the cursor. -/
def behindBrace (skipped : Bytes) : Bytes := (matchChar closeBrace (matchChar comma skipped).2).2

end Botid
