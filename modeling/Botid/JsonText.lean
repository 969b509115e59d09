import Botid.JsonReader

/-! JSON texts without escapes, token by token, and what the reader makes of them. -/
namespace Botid

variable {α : Type} {c d : UInt8} {s t ws X : Bytes} {x x' : α}
  {member : Bytes → α → Bytes → α × Bytes}

def Blank (s : Bytes) : Prop := ∀ c ∈ s, isSpace c = true

theorem blank_nil : Blank [] := List.forall_mem_nil _

@[simp] theorem peek_cons : peek (c :: X) = c := rfl

/-- A skip loop stops behind a prefix it likes, at a byte it does not like. -/
theorem dropWhile_append_cons {p : UInt8 → Bool} (hc : p c = false) :
    (s ++ c :: X).dropWhile p = s.dropWhile p ++ c :: X := by
  induction s with
  | nil => simp [hc]
  | cons d s ih =>
    rw [List.cons_append, List.dropWhile_cons, List.dropWhile_cons]
    split
    · exact ih
    · rfl

theorem takeWhile_append_cons {p : UInt8 → Bool} (hc : p c = false) :
    (s ++ c :: X).takeWhile p = s.takeWhile p := by
  induction s with
  | nil => simp [hc]
  | cons d s ih =>
    rw [List.cons_append, List.takeWhile_cons, List.takeWhile_cons, ih]

theorem dropWhile_of_forall {p : UInt8 → Bool} (hs : ∀ d ∈ s, p d = true) (hc : p c = false) :
    (s ++ c :: X).dropWhile p = c :: X := by
  rw [dropWhile_append_cons hc, List.dropWhile_eq_nil_iff.mpr hs, List.nil_append]

@[simp] theorem skipWhitespace_cons (hc : isSpace c = false) : skipWhitespace (c :: X) = c :: X := by
  simp [skipWhitespace, hc]

theorem skipWhitespace_append (hws : Blank ws) : skipWhitespace (ws ++ X) = skipWhitespace X := by
  rw [skipWhitespace, skipWhitespace, List.dropWhile_append_of_pos hws]

theorem skipWhitespace_blank (hws : Blank ws) (hc : isSpace c = false) :
    skipWhitespace (ws ++ c :: X) = c :: X := by
  rw [skipWhitespace_append hws, skipWhitespace_cons hc]

@[simp] theorem skipWhitespace_idem : skipWhitespace (skipWhitespace s) = skipWhitespace s := by
  induction s with
  | nil => rfl
  | cons c s ih =>
    cases hc : isSpace c with
    | true =>
      have : skipWhitespace (c :: s) = skipWhitespace s := by simp [skipWhitespace, hc]
      rw [this, ih]
    | false => rw [skipWhitespace_cons hc, skipWhitespace_cons hc]

theorem matchChar_self (hs : skipWhitespace s = c :: X) :
    matchChar c s = (true, X) := by
  simp [matchChar, hs]

theorem matchChar_of_ne (hs : skipWhitespace s = d :: X) (hd : d ≠ c) :
    matchChar c s = (false, d :: X) := by
  simp [matchChar, hs, hd]

theorem readString_append (hws : Blank ws) (ht : quote ∉ t) :
    readString (ws ++ quote :: (t ++ quote :: X)) = (t, X) := by
  have hquote : ∀ d ∈ t, decide (d ≠ quote) = true := by
    intro d hd
    simp only [decide_eq_true_eq]
    rintro rfl
    exact ht hd
  rw [readString, matchChar_self (skipWhitespace_blank hws (by decide))]
  dsimp only
  rw [dropWhile_of_forall hquote (by decide), takeWhile_append_cons (by decide),
    List.takeWhile_eq_self_iff.mpr hquote]
  rfl

theorem readString_quote (ht : quote ∉ t) : readString (quote :: (t ++ quote :: X)) = (t, X) :=
  readString_append blank_nil ht

theorem length_skipWhitespace_le : (skipWhitespace s).length ≤ s.length :=
  (List.dropWhile_suffix _).length_le

theorem length_matchChar_le : (matchChar c s).2.length ≤ s.length := by
  have h := length_skipWhitespace_le (s := s)
  rw [matchChar]
  split
  · simp
  · rename_i hs
    rw [hs, List.length_cons] at h
    split
    · dsimp only
      omega
    · simpa using h

/-- Finding the character consumes it. -/
theorem length_matchChar_lt (h : (matchChar c s).1 = true) : (matchChar c s).2.length < s.length := by
  have hle := length_skipWhitespace_le (s := s)
  rw [matchChar] at h ⊢
  split
  · rename_i hs
    simp [hs] at h
  · rename_i d t hs
    rw [hs] at h hle
    rw [List.length_cons] at hle
    dsimp only at h
    split at h
    · rename_i hd
      rw [if_pos hd]
      dsimp only
      omega
    · simp at h

theorem length_readString_le : (readString s).2.length ≤ s.length := by
  have h := length_matchChar_le (c := quote) (s := s)
  rw [readString]
  split
  · rename_i hm
    rwa [hm] at h
  · rename_i r hm
    rw [hm] at h
    have := (List.dropWhile_suffix (l := r) fun c => decide (c ≠ quote)).length_le
    rw [List.length_drop]
    dsimp only at h
    omega

/-- What a reader does with a member never lengthens the text. -/
def Consumes (member : Bytes → α → Bytes → α × Bytes) : Prop :=
  ∀ k x s, (member k x s).2.length ≤ s.length

theorem length_memberTurn (hm : Consumes member) {p : α × Bytes} :
    (memberTurn member p).1.2.length ≤ p.2.length ∧
      ((memberTurn member p).2 = true → (memberTurn member p).1.2.length < p.2.length) := by
  obtain ⟨x, s⟩ := p
  have hskip := length_skipWhitespace_le (s := s)
  have hkey := length_readString_le (s := skipWhitespace s)
  rw [← readKey] at hkey
  unfold memberTurn
  dsimp only
  split
  · exact ⟨hskip, by simp⟩
  · split
    · exact ⟨hkey.trans hskip, by simp⟩
    · have hcolon := length_matchChar_le (c := colon) (s := (readKey (skipWhitespace s)).2)
      split
      · exact ⟨hcolon.trans (hkey.trans hskip), by simp⟩
      · dsimp only
        have hmember := hm (readKey (skipWhitespace s)).1 x
          (matchChar colon (readKey (skipWhitespace s)).2).2
        refine ⟨?_, fun h => ?_⟩
        · exact length_matchChar_le.trans (hmember.trans (hcolon.trans (hkey.trans hskip)))
        · exact (length_matchChar_lt h).trans_le (hmember.trans (hcolon.trans (hkey.trans hskip)))

/-- The member loop ends: another turn means that a comma was consumed. -/
theorem shrinks_memberTurn (hm : Consumes member) :
    Loop.Shrinks (fun p => p.2.length) (memberTurn member) :=
  fun _ h => (length_memberTurn hm).2 h

theorem length_readMembers_le (hm : Consumes member) {p : α × Bytes} :
    (readMembers member p).2.length ≤ p.2.length := by
  unfold readMembers
  dsimp only
  refine length_matchChar_le.trans ?_
  exact Loop.run_invariant (I := fun q : α × Bytes => q.2.length ≤ p.2.length)
    (fun q hq => (length_memberTurn hm).1.trans hq) (le_refl _)

theorem length_skipBrackets_le {opening closing : UInt8} {n : Nat} :
    (skipBrackets opening closing n s).length ≤ s.length := by
  induction s generalizing n with
  | nil => cases n <;> simp [skipBrackets]
  | cons c s ih =>
    cases n with
    | zero => simp [skipBrackets]
    | succ n =>
      rw [skipBrackets]
      exact ih.trans (Nat.le_succ _)

theorem length_dropWhile_le {p : UInt8 → Bool} : (s.dropWhile p).length ≤ s.length :=
  (List.dropWhile_suffix _).length_le

theorem length_skipBlockValue_le : (skipBlockValue s).length ≤ s.length := by
  rw [skipBlockValue]
  split
  · exact length_skipBrackets_le
  · split
    · exact length_skipBrackets_le
    · exact length_dropWhile_le

theorem length_skipTopValue_le : (skipTopValue s).length ≤ s.length := by
  have hskip : ∀ opening closing,
      ((skipBrackets opening closing 1 (s.drop 1)).drop 1).length ≤ s.length := by
    intro opening closing
    have : (skipBrackets opening closing 1 (s.drop 1)).length ≤ (s.drop 1).length :=
      length_skipBrackets_le
    rw [List.length_drop] at this ⊢
    omega
  rw [skipTopValue]
  split
  · exact hskip _ _
  · split
    · exact hskip _ _
    · exact length_dropWhile_le

theorem consumes_blockMember {onKey : Bytes → α → Bytes → α × Bytes} (hk : Consumes onKey) :
    Consumes (blockMember onKey) :=
  fun k x s => length_skipBlockValue_le.trans (hk k x s)

theorem length_readBlock_le {onKey : Bytes → α → Bytes → α × Bytes} (hk : Consumes onKey)
    {p : α × Bytes} : (readBlock onKey p).2.length ≤ p.2.length := by
  unfold readBlock
  dsimp only
  split
  · exact (length_readMembers_le (consumes_blockMember hk)).trans length_matchChar_le
  · exact length_matchChar_le

theorem length_skipNestedTurn {p : Nat × Bytes} : (skipNestedTurn p).1.2.length ≤ p.2.length ∧
    ((skipNestedTurn p).2 = true → (skipNestedTurn p).1.2.length < p.2.length) := by
  obtain ⟨n, s⟩ := p
  cases s with
  | nil => exact ⟨le_refl _, fun h => by simp [skipNestedTurn] at h⟩
  | cons c s =>
    suffices h : (skipNestedTurn (n, c :: s)).1.2.length < (c :: s).length from ⟨h.le, fun _ => h⟩
    simp only [skipNestedTurn]
    split
    · rename_i hc
      have hquote : matchChar quote (c :: s) = (true, s) := by
        subst hc
        exact matchChar_self (skipWhitespace_cons (by decide))
      have hdrop := length_dropWhile_le (s := s) (p := fun c => decide (c ≠ quote))
      rw [readString, hquote]
      dsimp only
      rw [List.length_drop, List.length_cons]
      omega
    · split
      · simp
      · split <;> simp

theorem shrinks_skipNestedTurn : Loop.Shrinks (fun p => p.2.length) skipNestedTurn :=
  fun _ h => length_skipNestedTurn.2 h

theorem length_skipJsonValue_le : (skipJsonValue s).length ≤ s.length := by
  have hskip := length_skipWhitespace_le (s := s)
  unfold skipJsonValue
  dsimp only
  split
  · exact hskip
  · split
    · exact length_readString_le.trans hskip
    · split
      · rw [skipNested]
        exact Loop.run_invariant (I := fun q : Nat × Bytes => q.2.length ≤ s.length)
          (fun q hq => length_skipNestedTurn.1.trans hq) hskip
      · exact length_dropWhile_le.trans hskip

/-- One member as it is written: its key, which may be empty, and everything from the colon to the next
separator. -/
structure MemberText where
  lead : Bytes
  key : Bytes
  gap : Bytes
  value : Bytes
  lead_blank : Blank lead
  key_plain : quote ∉ key
  gap_blank : Blank gap

def MemberText.text (m : MemberText) : Bytes :=
  m.lead ++ quote :: (m.key ++ quote :: (m.gap ++ colon :: m.value))

/-- The members of an object between its braces, or blanks where there are none. -/
def membersText (ws : Bytes) : List MemberText → Bytes
  | [] => ws
  | [m] => m.text
  | m :: m' :: ms => m.text ++ comma :: membersText ws (m' :: ms)

/-- An object with what surrounds it. -/
def objectText (lead ws : Bytes) (ms : List MemberText) (tail : Bytes) : Bytes :=
  lead ++ openBrace :: (membersText ws ms ++ closeBrace :: tail)

/-- A member without any blanks. -/
def MemberText.bare (key value : Bytes) (h : quote ∉ key) : MemberText where
  lead := []
  key
  gap := []
  value
  lead_blank := blank_nil
  key_plain := h
  gap_blank := blank_nil

/-- The same member with another value. -/
def MemberText.withValue (m : MemberText) (v : Bytes) : MemberText := { m with value := v }

/-- A reader takes a member for what it is: it stops at the separator behind its value. -/
structure Reads (member : Bytes → α → Bytes → α × Bytes) (m : MemberText) (x x' : α) : Prop where
  key_ne : m.key ≠ []
  behind : ∀ c X, c = comma ∨ c = closeBrace →
    ∃ s, member m.key x (m.value ++ c :: X) = (x', s) ∧ skipWhitespace s = c :: X

/-- A member that ends every loop around it: the cursor is left on a colon. -/
def Stops (member : Bytes → α → Bytes → α × Bytes) (m : MemberText) (x x' : α) : Prop :=
  ∀ X, ∃ s, readMembers member (x, m.text ++ X) = (x', colon :: s)

variable {m : MemberText} {ms : List MemberText}

theorem skipWhitespace_text : skipWhitespace (m.text ++ X) =
    quote :: (m.key ++ quote :: (m.gap ++ colon :: (m.value ++ X))) := by
  rw [MemberText.text, List.append_assoc, List.cons_append,
    skipWhitespace_blank m.lead_blank (by decide)]
  simp

theorem text_opens : ¬ (quote :: X = [] ∨ peek (quote :: X) = closeBrace) := by
  rintro (h | h)
  · simp at h
  · exact absurd (show quote = closeBrace from h) (by decide)

theorem readKey_text : readKey (quote :: (m.key ++ quote :: X)) = (m.key, X) :=
  readString_quote m.key_plain

theorem matchChar_text : matchChar colon (m.gap ++ colon :: X) = (true, X) :=
  matchChar_self (skipWhitespace_blank m.gap_blank (by decide))

theorem memberTurn_text {rest : Bytes} (hkey : m.key ≠ []) : memberTurn member (x, m.text ++ rest) =
    (((member m.key x (m.value ++ rest)).1,
        (matchChar comma (member m.key x (m.value ++ rest)).2).2),
      (matchChar comma (member m.key x (m.value ++ rest)).2).1) := by
  have hcolon : matchChar colon (m.gap ++ colon :: (m.value ++ rest)) = (true, m.value ++ rest) :=
    matchChar_text
  unfold memberTurn
  dsimp only
  rw [skipWhitespace_text]
  generalize m.gap ++ colon :: (m.value ++ rest) = u at *
  rw [if_neg text_opens, readKey_text]
  dsimp only
  rw [if_neg hkey, hcolon]
  rfl

/-- No members, no change. -/
theorem readMembers_blank (hm : Consumes member) (hws : Blank ws) :
    readMembers member (x, ws ++ closeBrace :: X) = (x, X) := by
  have hturn : memberTurn member (x, ws ++ closeBrace :: X) = ((x, closeBrace :: X), false) := by
    unfold memberTurn
    dsimp only
    rw [skipWhitespace_blank hws (by decide), if_pos (by simp [peek])]
  rw [readMembers, Loop.run_of_done (shrinks_memberTurn hm) hturn]
  dsimp only
  rw [matchChar_self (skipWhitespace_cons (by decide))]

/-- A member that is read is behind the reader, whatever follows it. -/
theorem readMembers_cons (hm : Consumes member) (hws : Blank ws) (h : Reads member m x x') :
    readMembers member (x, membersText ws (m :: ms) ++ closeBrace :: X) =
      readMembers member (x', membersText ws ms ++ closeBrace :: X) := by
  cases ms with
  | nil =>
    obtain ⟨s, hread, hs⟩ := h.behind closeBrace X (Or.inr rfl)
    have hturn : memberTurn member (x, m.text ++ closeBrace :: X) =
        ((x', closeBrace :: X), false) := by
      rw [memberTurn_text h.key_ne, hread, matchChar_of_ne hs (by decide)]
    rw [membersText, membersText, readMembers_blank hm hws, readMembers,
      Loop.run_of_done (shrinks_memberTurn hm) hturn]
    dsimp only
    rw [matchChar_self (skipWhitespace_cons (by decide))]
  | cons m' ms =>
    obtain ⟨s, hread, hs⟩ :=
      h.behind comma (membersText ws (m' :: ms) ++ closeBrace :: X) (Or.inl rfl)
    have hturn : memberTurn member (x, membersText ws (m :: m' :: ms) ++ closeBrace :: X) =
        ((x', membersText ws (m' :: ms) ++ closeBrace :: X), true) := by
      rw [membersText, List.append_assoc, List.cons_append, memberTurn_text h.key_ne, hread,
        matchChar_self hs]
    rw [readMembers, readMembers, Loop.run_of_again (shrinks_memberTurn hm) hturn]

/-- What follows a member in the text of its object. -/
def restText (ws : Bytes) : List MemberText → Bytes
  | [] => []
  | m :: ms => comma :: membersText ws (m :: ms)

theorem membersText_cons : membersText ws (m :: ms) = m.text ++ restText ws ms := by
  cases ms with
  | nil => exact (List.append_nil m.text).symm
  | cons m' ms => rfl

/-- Behind a member without a key no loop reads on. -/
theorem readMembers_nameless (hm : Consumes member) (hkey : m.key = []) :
    readMembers member (x, m.text ++ X) = (x, colon :: (m.value ++ X)) := by
  have hturn : memberTurn member (x, m.text ++ X) =
      ((x, m.gap ++ colon :: (m.value ++ X)), false) := by
    unfold memberTurn
    dsimp only
    rw [skipWhitespace_text, if_neg text_opens, readKey_text]
    dsimp only
    rw [if_pos hkey]
  rw [readMembers, Loop.run_of_done (shrinks_memberTurn hm) hturn]
  dsimp only
  rw [matchChar_of_ne (skipWhitespace_blank m.gap_blank (by decide)) (by decide)]

theorem stops_of_nameless (hm : Consumes member) (hkey : m.key = []) : Stops member m x x :=
  fun _ => ⟨_, readMembers_nameless hm hkey⟩

/-- Members of one kind, each read for what it says. -/
theorem readMembers_foldl {β : Type} {text : β → MemberText} {apply : α → β → α} {bs : List β}
    (hm : Consumes member) (hws : Blank ws) (h : ∀ b ∈ bs, ∀ x, Reads member (text b) x (apply x b)) :
    readMembers member (x, membersText ws (bs.map text ++ ms) ++ closeBrace :: X) =
      readMembers member (bs.foldl apply x, membersText ws ms ++ closeBrace :: X) := by
  induction bs generalizing x with
  | nil => rfl
  | cons b bs ih =>
    rw [List.forall_mem_cons] at h
    rw [List.map_cons, List.cons_append, readMembers_cons hm hws (h.1 x), ih h.2, List.foldl_cons]

/-- The whole object, when they are all there is. -/
theorem readMembers_map {β : Type} {text : β → MemberText} {apply : α → β → α} {bs : List β}
    (hm : Consumes member) (hws : Blank ws) (h : ∀ b ∈ bs, ∀ x, Reads member (text b) x (apply x b)) :
    readMembers member (x, membersText ws (bs.map text) ++ closeBrace :: X) = (bs.foldl apply x, X) := by
  have hread : readMembers member (x, membersText ws (bs.map text ++ []) ++ closeBrace :: X) =
      readMembers member (bs.foldl apply x, membersText ws [] ++ closeBrace :: X) :=
    readMembers_foldl hm hws h
  rwa [List.append_nil, membersText, readMembers_blank hm hws] at hread

theorem readBlock_text {onKey : Bytes → α → Bytes → α × Bytes} (hlead : Blank ws) :
    readBlock onKey (x, ws ++ openBrace :: X) = readMembers (blockMember onKey) (x, X) := by
  unfold readBlock
  dsimp only
  rw [matchChar_self (skipWhitespace_blank hlead (by decide)), if_pos rfl]

/-- Two values that a reader cannot tell apart. -/
theorem readMembers_withValue (hm : Consumes member) {v v' : Bytes} (hkey : m.key ≠ [])
    (h : ∀ X, member m.key x (v ++ X) = member m.key x (v' ++ X)) :
    readMembers member (x, membersText ws (m.withValue v :: ms) ++ closeBrace :: X) =
      readMembers member (x, membersText ws (m.withValue v' :: ms) ++ closeBrace :: X) := by
  have hturn : memberTurn member (x, membersText ws (m.withValue v :: ms) ++ closeBrace :: X) =
      memberTurn member (x, membersText ws (m.withValue v' :: ms) ++ closeBrace :: X) := by
    have hkey' : ∀ v, (m.withValue v).key ≠ [] := fun _ => hkey
    rw [membersText_cons, membersText_cons, List.append_assoc, List.append_assoc,
      memberTurn_text (hkey' v), memberTurn_text (hkey' v')]
    simp only [MemberText.withValue, h]
  rw [readMembers, readMembers, Loop.run_eq (shrinks_memberTurn hm), hturn,
    ← Loop.run_eq (shrinks_memberTurn hm)]

/-- What a reader preserves with every member, whatever it finds, the whole loop preserves. -/
theorem readMembers_invariant {I : α → Prop} (hI : ∀ k x s, I x → I (member k x s).1) {p : α × Bytes}
    (hp : I p.1) : I (readMembers member p).1 := by
  refine Loop.run_invariant (I := fun q : α × Bytes => I q.1) (fun q hq => ?_) hp
  unfold memberTurn
  dsimp only
  split
  · exact hq
  · split
    · exact hq
    · split
      · exact hq
      · exact hI _ _ _ hq

theorem readBlock_invariant {onKey : Bytes → α → Bytes → α × Bytes} {I : α → Prop}
    (hI : ∀ k x s, I x → I (blockMember onKey k x s).1) {p : α × Bytes} (hp : I p.1) :
    I (readBlock onKey p).1 := by
  unfold readBlock
  dsimp only
  split
  · exact readMembers_invariant hI hp
  · exact hp

/-- A reader that treats what `g` shows of its value as it treats the value itself. -/
def Commutes {β : Type} (g : α → β) (member : Bytes → α → Bytes → α × Bytes)
    (member' : Bytes → β → Bytes → β × Bytes) : Prop :=
  ∀ k x s, member' k (g x) s = (g (member k x s).1, (member k x s).2)

theorem readMembers_commute {β : Type} {g : α → β} {member' : Bytes → β → Bytes → β × Bytes}
    (h : Commutes g member member') {p : α × Bytes} :
    readMembers member' (g p.1, p.2) = (g (readMembers member p).1, (readMembers member p).2) := by
  have hturn : ∀ p : α × Bytes, memberTurn member' (g p.1, p.2) =
      ((g (memberTurn member p).1.1, (memberTurn member p).1.2), (memberTurn member p).2) := by
    intro p
    unfold memberTurn
    dsimp only
    split
    · rfl
    · split
      · rfl
      · split
        · rfl
        · rw [h]
  have hloop := @Loop.run_commute _ (fun p => p.2.length) _ p _ (fun p => p.2.length) _
    (fun p : α × Bytes => (g p.1, p.2)) (fun _ => rfl) hturn
  unfold readMembers
  dsimp only at hloop ⊢
  rw [hloop]

theorem Commutes.readBlock {β : Type} {g : α → β} {onKey : Bytes → α → Bytes → α × Bytes}
    {onKey' : Bytes → β → Bytes → β × Bytes} (h : Commutes g onKey onKey') {p : α × Bytes} :
    readBlock onKey' (g p.1, p.2) = (g (readBlock onKey p).1, (readBlock onKey p).2) := by
  have hmember : Commutes g (blockMember onKey) (blockMember onKey') := by
    intro k x s
    rw [blockMember, blockMember, h]
  unfold Botid.readBlock
  dsimp only
  split
  · exact readMembers_commute hmember (p := (_, _))
  · rfl

/-- What the first member establishes holds at the end. -/
theorem readMembers_of_first {I : α → Prop} (hm : Consumes member) (hkey : m.key ≠ [])
    (hI : ∀ k x s, I x → I (member k x s).1) (h : I (member m.key x (m.value ++ X)).1) :
    I (readMembers member (x, m.text ++ X)).1 := by
  rw [readMembers, Loop.run_eq (shrinks_memberTurn hm), memberTurn_text hkey]
  split
  · exact readMembers_invariant hI (p := (_, _)) h
  · exact h

/-- A member with no comma behind it is the last one the loop looks at. -/
theorem readMembers_last (hm : Consumes member) (hkey : m.key ≠ [])
    (h : (matchChar comma (member m.key x (m.value ++ X)).2).1 = false) :
    readMembers member (x, m.text ++ X) =
      ((member m.key x (m.value ++ X)).1,
        (matchChar closeBrace (matchChar comma (member m.key x (m.value ++ X)).2).2).2) := by
  have hturn : memberTurn member (x, m.text ++ X) =
      (((member m.key x (m.value ++ X)).1, (matchChar comma (member m.key x (m.value ++ X)).2).2),
        false) := by
    rw [memberTurn_text hkey, h]
  rw [readMembers, Loop.run_of_done (shrinks_memberTurn hm) hturn]

/-- A value that leaves its reader on a colon ends the loop around it, too. -/
theorem stops_of_member (hm : Consumes member) (hkey : m.key ≠ [])
    (h : ∀ X, ∃ s, member m.key x (m.value ++ X) = (x', colon :: s)) : Stops member m x x' := by
  intro X
  obtain ⟨s, hread⟩ := h X
  have hcolon : ∀ d, colon ≠ d → matchChar d (colon :: s) = (false, colon :: s) :=
    fun d hd => matchChar_of_ne (skipWhitespace_cons (by decide)) hd
  refine ⟨s, ?_⟩
  rw [readMembers_last hm hkey (by rw [hread, hcolon comma (by decide)]), hread,
    hcolon comma (by decide), hcolon closeBrace (by decide)]

/-- Members that are read leave the reader in a state of their own, whatever follows them. -/
theorem readMembers_append (hm : Consumes member) (hws : Blank ws)
    (h : ∀ m ∈ ms, ∀ x, ∃ x', Reads member m x x') :
    ∃ x', ∀ rest X, readMembers member (x, membersText ws (ms ++ rest) ++ closeBrace :: X) =
      readMembers member (x', membersText ws rest ++ closeBrace :: X) := by
  induction ms generalizing x with
  | nil => exact ⟨x, fun _ _ => rfl⟩
  | cons m ms ih =>
    obtain ⟨x₁, hx₁⟩ := h m List.mem_cons_self x
    obtain ⟨x', hx'⟩ := ih (x := x₁) fun m' hm' => h m' (List.mem_cons_of_mem m hm')
    refine ⟨x', fun rest X => ?_⟩
    rw [List.cons_append, readMembers_cons hm hws hx₁, hx']

/-- With one among them that ends the loop, nothing that follows them is read. -/
theorem readMembers_stopped (hm : Consumes member) (hws : Blank ws)
    (h : ∀ m ∈ ms, (∀ x, ∃ x', Reads member m x x') ∨ ∀ x, ∃ x', Stops member m x x')
    (hstops : ∃ m ∈ ms, ∀ x, ∃ x', Stops member m x x') :
    ∃ x', ∀ rest X, ∃ s, readMembers member (x, membersText ws (ms ++ rest) ++ closeBrace :: X) =
      (x', colon :: s) := by
  induction ms generalizing x with
  | nil => simp at hstops
  | cons m ms ih =>
    rw [List.forall_mem_cons] at h
    by_cases hfirst : ∀ x, ∃ x', Stops member m x x'
    · obtain ⟨x₁, hx₁⟩ := hfirst x
      refine ⟨x₁, fun rest X => ?_⟩
      rw [List.cons_append, membersText_cons, List.append_assoc]
      exact hx₁ _
    · obtain ⟨x₁, hx₁⟩ := h.1.resolve_right hfirst x
      obtain ⟨m', hm', hstop⟩ := hstops
      have hlater : m' ∈ ms := by
        rcases List.mem_cons.mp hm' with rfl | hm'
        · exact absurd hstop hfirst
        · exact hm'
      obtain ⟨x', hx'⟩ := ih (x := x₁) h.2 ⟨m', hlater, hstop⟩
      refine ⟨x', fun rest X => ?_⟩
      rw [List.cons_append, readMembers_cons hm hws hx₁]
      exact hx' rest X

def isBracket (c : UInt8) : Bool :=
  c = openBrace ∨ c = closeBrace ∨ c = openBracket ∨ c = closeBracket

/-- An opening bracket and the closing one that belongs to it. -/
def IsPair (o c : UInt8) : Prop :=
  (o = openBrace ∧ c = closeBrace) ∨ (o = openBracket ∧ c = closeBracket)

/-- Text whose brackets nest and whose strings close, like the inside of any object or array. -/
inductive Nested : Bytes → Prop
  | nil : Nested []
  | byte {c : UInt8} {s : Bytes} (plain : c ≠ quote ∧ isBracket c = false) (rest : Nested s) :
    Nested (c :: s)
  | string {t s : Bytes} (plain : quote ∉ t) (rest : Nested s) :
    Nested (quote :: (t ++ quote :: s))
  | enclosed {o c : UInt8} {t s : Bytes} (pair : IsPair o c) (inside : Nested t) (rest : Nested s) :
    Nested (o :: (t ++ c :: s))

/-- The bytes of numbers, `true`, `false` and `null`, among others. -/
def isScalarByte (c : UInt8) : Bool :=
  !isSpace c && c ≠ quote && !isBracket c && c ≠ comma && c ≠ colon

/-- Every JSON value without escapes, and what only an exact grammar would keep out. -/
inductive JsonValue : Bytes → Prop
  | scalar {s : Bytes} (ne : s ≠ []) (bytes : ∀ c ∈ s, isScalarByte c = true) : JsonValue s
  | string {t : Bytes} (plain : quote ∉ t) : JsonValue (quote :: (t ++ [quote]))
  | enclosed {o c : UInt8} {s : Bytes} (pair : IsPair o c) (inside : Nested s) :
    JsonValue (o :: (s ++ [c]))

theorem skipNestedTurn_open {n : Nat} (h : IsPair d c) :
    skipNestedTurn (n, d :: X) = ((n + 1, X), decide (X ≠ [])) := by
  have hd : d = openBrace ∨ d = openBracket := h.imp And.left And.left
  have hquote : d ≠ quote := by
    rcases hd with rfl | rfl <;> decide
  simp [skipNestedTurn, hquote, hd]

theorem skipNestedTurn_close {n : Nat} (h : IsPair d c) :
    skipNestedTurn (n + 1, c :: X) = ((n, X), decide (X ≠ [] ∧ 0 < n)) := by
  have hc : c = closeBrace ∨ c = closeBracket := h.imp And.right And.right
  have hother : c ≠ quote ∧ ¬ (c = openBrace ∨ c = openBracket) := by
    rcases hc with rfl | rfl <;> decide
  simp [skipNestedTurn, hother, hc]

theorem skipNested_again {n n' : Nat} (h : skipNestedTurn (n, s) = ((n', t), true)) :
    skipNested (n, s) = skipNested (n', t) :=
  Loop.run_of_again shrinks_skipNestedTurn h

/-- Nested text leaves the depth as it was. -/
theorem skipNested_append {n : Nat} (h : Nested s) (hX : X ≠ []) :
    skipNested (n + 1, s ++ X) = skipNested (n + 1, X) := by
  induction h generalizing n X with
  | nil => rfl
  | byte plain rest ih =>
    rw [← ih hX]
    apply skipNested_again
    obtain ⟨hquote, hbracket⟩ := plain
    simp only [isBracket, decide_eq_false_iff_not, not_or] at hbracket
    simp [skipNestedTurn, hquote, hbracket, hX]
  | string plain rest ih =>
    rw [← ih hX]
    apply skipNested_again
    rw [List.cons_append, List.append_assoc, List.cons_append]
    simp [skipNestedTurn, readString_quote plain, hX]
  | @enclosed o c t s pair inside rest ih ih' =>
    have hopen : skipNestedTurn (n + 1, o :: (t ++ c :: (s ++ X))) = ((n + 2, t ++ c :: (s ++ X)), true) := by
      rw [skipNestedTurn_open pair]
      simp
    have hclose : skipNestedTurn (n + 2, c :: (s ++ X)) = ((n + 1, s ++ X), true) := by
      rw [skipNestedTurn_close pair]
      simp [hX]
    rw [List.cons_append, List.append_assoc, List.cons_append, skipNested_again hopen, ih (by simp),
      skipNested_again hclose, ih' hX]

theorem isSpace_separator (hc : c = comma ∨ c = closeBrace) : isSpace c = false := by
  rcases hc with rfl | rfl <;> decide

/-- The first byte of a value. -/
theorem JsonValue.head {v : Bytes} (hv : JsonValue v) : ∃ d u, v = d :: u ∧ isSpace d = false ∧
    d ≠ comma ∧ d ≠ closeBrace := by
  cases hv with
  | scalar ne bytes =>
    obtain ⟨d, u, rfl⟩ := List.exists_cons_of_ne_nil ne
    have hd := bytes d List.mem_cons_self
    simp only [isScalarByte, isBracket, Bool.and_eq_true, Bool.not_eq_true', decide_eq_true_eq,
      decide_eq_false_iff_not, not_or] at hd
    exact ⟨d, u, rfl, hd.1.1.1.1, hd.1.2, hd.1.1.2.2.1⟩
  | string plain => exact ⟨quote, _, rfl, by decide, by decide, by decide⟩
  | enclosed pair inside =>
    refine ⟨_, _, rfl, ?_⟩
    rcases pair with ⟨rfl, -⟩ | ⟨rfl, -⟩ <;> decide

/-- `SkipJsonValue` stops right behind a value, or at the separator. -/
theorem skipJsonValue_append {v lead trail : Bytes} (hlead : Blank lead) (htrail : Blank trail)
    (hv : JsonValue v) (hc : c = comma ∨ c = closeBrace) :
    skipWhitespace (skipJsonValue (lead ++ v ++ trail ++ c :: X)) = c :: X := by
  have hbehind : skipWhitespace (trail ++ c :: X) = c :: X :=
    skipWhitespace_blank htrail (isSpace_separator hc)
  have hstart : skipWhitespace (lead ++ v ++ trail ++ c :: X) = v ++ (trail ++ c :: X) := by
    obtain ⟨d, u, rfl, hd, -⟩ := hv.head
    rw [List.append_assoc, List.append_assoc, List.cons_append, skipWhitespace_blank hlead hd]
  unfold skipJsonValue
  dsimp only
  rw [hstart, if_neg (by simp)]
  cases hv with
  | scalar ne bytes =>
    obtain ⟨d, u, rfl⟩ := List.exists_cons_of_ne_nil ne
    have hbyte : ∀ e ∈ d :: u, e ≠ quote ∧ ¬ (e = openBrace ∨ e = openBracket) ∧
        e ≠ comma ∧ e ≠ closeBrace ∧ e ≠ closeBracket := by
      intro e he
      have := bytes e he
      simp only [isScalarByte, isBracket, Bool.and_eq_true, Bool.not_eq_true', decide_eq_true_eq,
        decide_eq_false_iff_not, not_or] at this
      tauto
    obtain ⟨hquote, hopen, -⟩ := hbyte d List.mem_cons_self
    rw [List.cons_append, peek_cons, if_neg hquote, if_neg hopen, ← List.cons_append,
      ← List.append_assoc, dropWhile_of_forall, skipWhitespace_cons (isSpace_separator hc)]
    · intro e he
      rcases List.mem_append.mp he with he | he
      · simp [hbyte e he]
      · have hspace := htrail e he
        simp only [isSpace, decide_eq_true_eq] at hspace
        rcases hspace with rfl | rfl | rfl | rfl <;> decide
    · rcases hc with rfl | rfl <;> decide
  | string plain =>
    rw [List.cons_append, List.append_assoc, List.singleton_append, peek_cons, if_pos rfl,
      readString_quote plain]
    exact hbehind
  | @enclosed o e s pair inside =>
    have ho : o ≠ quote ∧ (o = openBrace ∨ o = openBracket) := by
      rcases pair with ⟨rfl, -⟩ | ⟨rfl, -⟩ <;> decide
    have hdone : skipNested (1, e :: (trail ++ c :: X)) = (0, trail ++ c :: X) := by
      apply Loop.run_of_done shrinks_skipNestedTurn
      rw [skipNestedTurn_close pair]
      simp
    rw [List.cons_append, List.append_assoc, List.singleton_append, peek_cons, if_neg ho.1,
      if_pos ho.2, skipNested_again (t := s ++ e :: (trail ++ c :: X)),
      skipNested_append inside (by simp), hdone]
    · exact hbehind
    · rw [skipNestedTurn_open pair]
      simp

end Botid
