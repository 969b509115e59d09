import Botid.GamedataText

/-! What `ReadOffset` and `ReadLinuxString` take from a gamedata document, and when `LoadGamedata`
overrides exactly what the entries of the names say. -/
namespace Botid

open QuotedText

variable {d : GamedataDocument} {name rest body s digits tail : Bytes} {n : Int} {c : UInt8}
  {target : Option Int} {t : OffsetTarget}

/-- A run of bytes is taken up to the first byte of another kind. -/
theorem takeWhile_append_stop {p : UInt8 → Bool} (hdigits : ∀ c ∈ digits, p c = true)
    (htail : ∀ c ∈ tail.head?, p c = false) : (digits ++ tail).takeWhile p = digits := by
  rw [List.takeWhile_append_of_pos hdigits]
  cases tail with
  | nil => simp
  | cons c tail => rw [List.takeWhile_cons_of_neg (by simp [htail c rfl]), List.append_nil]

theorem dropWhile_append_stop {p : UInt8 → Bool} (hdigits : ∀ c ∈ digits, p c = true)
    (htail : ∀ c ∈ tail.head?, p c = false) : (digits ++ tail).dropWhile p = tail := by
  rw [List.dropWhile_append_of_pos hdigits]
  cases tail with
  | nil => rfl
  | cons c tail => rw [List.dropWhile_cons_of_neg (by simp [htail c rfl])]

theorem le_digitsValue_foldl (digits : Bytes) (m : Nat) :
    m ≤ digits.foldl (fun n c => n * 10 + (c.toNat - 48)) m := by
  induction digits generalizing m with
  | nil => exact Nat.le_refl m
  | cons c digits ih =>
    rw [List.foldl_cons]
    exact (by omega : m ≤ m * 10 + (c.toNat - 48)).trans (ih _)

/-- One more digit, computed in `int`. -/
theorem nextDigit_eq {m k : Nat} : ((Signed.mul 32 m 10).bind fun n => Signed.add 32 n k) =
    if m * 10 + k < 2 ^ 31 then some ((m * 10 + k : Nat) : Int) else none := by
  have hfits : ∀ n : Nat, Signed.Fits 32 n ↔ n < 2 ^ 31 := by
    intro n
    unfold Signed.Fits
    omega
  have hsum : (m : Int) * 10 + k = ((m * 10 + k : Nat) : Int) := by push_cast; rfl
  have hproduct : (m : Int) * 10 = ((m * 10 : Nat) : Int) := by push_cast; rfl
  split
  · rename_i hlt
    rw [Signed.mul_of_fits (hproduct ▸ (hfits _).mpr (by omega)), Option.bind_some,
      Signed.add_of_fits (hsum ▸ (hfits _).mpr hlt), hsum]
  · rename_i hge
    rw [Option.bind_eq_none_iff]
    intro n hn
    obtain ⟨-, rfl⟩ := Signed.mul_eq_some.mp hn
    rw [Signed.add, Signed.checked, hsum]
    exact if_neg (mt (hfits _).mp hge)

/-- The sum of the digits is computed in `int` exactly when it is below 2^31. -/
theorem readDigits_eq (hdigits : ∀ c ∈ digits, isDigit c = true) : readDigits digits =
    if digitsValue digits < 2 ^ 31 then some (digitsValue digits : Int) else none := by
  have hfold : ∀ m : Nat, m < 2 ^ 31 → digits.foldlM
      (fun (n : Int) c => (Signed.mul 32 n 10).bind fun k => Signed.add 32 k (c.toNat - 48)) (m : Int) =
        if digits.foldl (fun n c => n * 10 + (c.toNat - 48)) m < 2 ^ 31 then
          some ((digits.foldl (fun n c => n * 10 + (c.toNat - 48)) m : Nat) : Int) else none := by
    induction digits with
    | nil =>
      intro m hm
      rw [List.foldl_nil, if_pos hm]
      rfl
    | cons c digits ih =>
      intro m hm
      have hc : ((c.toNat : Int) - 48) = ((c.toNat - 48 : Nat) : Int) := by
        have hdigit := hdigits c List.mem_cons_self
        rw [isDigit, decide_eq_true_eq, UInt8.le_iff_toNat_le] at hdigit
        exact (Int.natCast_sub hdigit.1).symm
      rw [List.foldlM_cons, List.foldl_cons, hc, nextDigit_eq]
      split
      · rename_i hlt
        exact ih (fun c hc => hdigits c (List.mem_cons_of_mem _ hc)) _ hlt
      · rename_i hge
        have := le_digitsValue_foldl digits (m * 10 + (c.toNat - 48))
        rw [if_neg (by omega)]
        rfl
  exact hfold 0 (by decide)

theorem isSpaceOrTab_of_isDigit (h : isDigit c = true) : isSpaceOrTab c = false := by
  cases hs : isSpaceOrTab c with
  | false => rfl
  | true =>
    rw [isSpaceOrTab, decide_eq_true_eq] at hs
    rcases hs with rfl | rfl
    · exact absurd h (by decide)
    · exact absurd h (by decide)

theorem isDigit_head (hne : digits ≠ []) (hdigits : ∀ c ∈ digits, isDigit c = true) (tail : Bytes) :
    isDigit (peek (digits ++ tail)) = true := by
  obtain ⟨c, digits, rfl⟩ := List.exists_cons_of_ne_nil hne
  exact hdigits c List.mem_cons_self

/-- The signed sum, computed in `int`. -/
theorem readDigits_signed {sign : Int} (hsign : sign = 1 ∨ sign = -1)
    (hdigits : ∀ c ∈ digits, isDigit c = true) :
    ((readDigits digits).bind fun n => Signed.mul 32 sign n) =
      if digitsValue digits < 2 ^ 31 then some (sign * digitsValue digits) else none := by
  rw [readDigits_eq hdigits]
  split
  · rw [Option.bind_some, Signed.mul_of_fits]
    unfold Signed.Fits
    rcases hsign with rfl | rfl <;> omega
  · rfl

/-- `ReadOffset` behind the colon: a number that is written there, where it fits. -/
theorem readNumber_of_numberAt (h : NumberAt s n) : readNumber s =
    if -2147483648 < n ∧ n < 2147483648 then some n else none := by
  obtain ⟨blanks, digits, tail, hblanks, hne, hdigits, htail, ⟨rfl, rfl⟩ | ⟨rfl, rfl⟩⟩ := h
  · have hdigit := isDigit_head hne hdigits tail
    have hdrop : (blanks ++ (digits ++ tail)).dropWhile isSpaceOrTab = digits ++ tail := by
      refine dropWhile_append_stop hblanks fun c hc => ?_
      obtain ⟨d, digits, rfl⟩ := List.exists_cons_of_ne_nil hne
      cases hc
      exact isSpaceOrTab_of_isDigit hdigit
    have hminus : peek (digits ++ tail) ≠ 45 := by
      intro hpeek
      rw [hpeek] at hdigit
      exact absurd hdigit (by decide)
    rw [readNumber]
    simp only [hdrop, if_neg hminus, takeWhile_append_stop hdigits htail, if_neg hne]
    rw [readDigits_signed (Or.inl rfl) hdigits, Int.one_mul]
    exact if_congr (by omega) rfl rfl
  · have hdrop : (blanks ++ 45 :: (digits ++ tail)).dropWhile isSpaceOrTab = 45 :: (digits ++ tail) :=
      dropWhile_append_stop hblanks fun c hc => by cases hc; decide
    have hminus : peek (45 :: (digits ++ tail)) = 45 := rfl
    rw [readNumber]
    simp only [hdrop, hminus, if_true, List.drop_one, List.tail_cons,
      takeWhile_append_stop hdigits htail, if_neg hne]
    rw [readDigits_signed (Or.inr rfl) hdigits, Int.neg_one_mul]
    exact if_congr (by omega) rfl rfl

/-- The digits in front of a text, and what follows them. -/
theorem digits_in_front (s : Bytes) : (∀ c ∈ s.takeWhile isDigit, isDigit c = true) ∧
    (∀ c ∈ (s.dropWhile isDigit).head?, isDigit c = false) ∧
    s = s.takeWhile isDigit ++ s.dropWhile isDigit := by
  refine ⟨fun c => List.mem_takeWhile_imp, fun c hc => ?_, List.takeWhile_append_dropWhile.symm⟩
  have hhead := List.head?_dropWhile_not isDigit s
  rw [Option.mem_def.mp hc] at hhead
  simpa using hhead

/-- The blanks in front of a value. -/
theorem blanks_in_front (s : Bytes) : ∃ blanks, (∀ c ∈ blanks, isSpaceOrTab c = true) ∧
    s = blanks ++ s.dropWhile isSpaceOrTab :=
  ⟨s.takeWhile isSpaceOrTab, fun _ => List.mem_takeWhile_imp, List.takeWhile_append_dropWhile.symm⟩

/-- Without a number there, `ReadOffset` returns -1. -/
theorem numberAt_or (s : Bytes) : (∃ n, NumberAt s n) ∨ readNumber s = some (-1) := by
  obtain ⟨blanks, hblanks, hsplit⟩ := blanks_in_front s
  rw [readNumber]
  generalize s.dropWhile isSpaceOrTab = t at hsplit
  subst hsplit
  by_cases hminus : peek t = 45
  · obtain ⟨u, rfl⟩ : ∃ u, t = 45 :: u := by
      cases t with
      | nil => exact absurd hminus (by decide)
      | cons c u => exact ⟨u, congrArg (· :: u) hminus⟩
    by_cases hne : u.takeWhile isDigit = []
    · right
      simp only [hminus, if_true, List.drop_one, List.tail_cons, hne]
    · left
      obtain ⟨hdigits, htail, hu⟩ := digits_in_front u
      exact ⟨_, blanks, _, _, hblanks, hne, hdigits, htail, Or.inr ⟨by rw [← hu], rfl⟩⟩
  · by_cases hne : t.takeWhile isDigit = []
    · right
      simp only [if_neg hminus, hne, if_true]
    · left
      obtain ⟨hdigits, htail, ht⟩ := digits_in_front t
      exact ⟨_, blanks, _, _, hblanks, hne, hdigits, htail, Or.inl ⟨by rw [← ht], rfl⟩⟩

/-- `ReadLinuxString` behind the colon: a string that is written there. -/
theorem readQuoted_of_stringAt (h : StringAt s body) : readQuoted s = body := by
  obtain ⟨blanks, tail, hblanks, hbody, rfl⟩ := h
  have hdrop : (blanks ++ quote :: (body ++ quote :: tail)).dropWhile isSpaceOrTab =
      quote :: (body ++ quote :: tail) :=
    dropWhile_append_stop hblanks fun c hc => by cases hc; decide
  have hplain : ∀ c ∈ body, decide (c ≠ quote) = true := by
    intro c hc
    exact decide_eq_true fun hquote => hbody (hquote ▸ hc)
  rw [readQuoted, hdrop]
  dsimp only
  rw [if_pos ⟨rfl, by simp⟩]
  exact takeWhile_append_stop hplain fun c hc => by cases hc; decide

/-- Without a string there, `ReadLinuxString` returns an empty one. -/
theorem stringAt_or (s : Bytes) : (∃ body, StringAt s body) ∨ readQuoted s = [] := by
  obtain ⟨blanks, hblanks, hsplit⟩ := blanks_in_front s
  rw [readQuoted]
  generalize s.dropWhile isSpaceOrTab = t at hsplit
  subst hsplit
  cases t with
  | nil => exact Or.inr rfl
  | cons c t =>
    by_cases hstring : c = quote ∧ quote ∈ t
    · obtain ⟨rfl, hclosing⟩ := hstring
      obtain ⟨body, tail, rfl, hbody⟩ := List.eq_append_cons_of_mem hclosing
      exact Or.inl ⟨body, blanks, tail, hblanks, hbody, rfl⟩
    · exact Or.inr (if_neg hstring)

theorem readOffset_of_shows (hname : JsonWord name) (hne : ascii "linux" ≠ name)
    (h : d.Shows name rest) : readOffset d.text name = readNumber rest := by
  rw [readOffset, (findLinux_text hname hne).mpr h]

/-- What `ReadOffset` returns is -1, or a number that the document shows. -/
theorem readOffset_cases (hname : JsonWord name) (hne : ascii "linux" ≠ name) :
    readOffset d.text name = some (-1) ∨ ∃ rest n, d.Shows name rest ∧ NumberAt rest n ∧
      readOffset d.text name = if -2147483648 < n ∧ n < 2147483648 then some n else none := by
  cases hfind : findLinux d.text name with
  | none =>
    left
    rw [readOffset, hfind]
  | some rest =>
    have hshows : d.Shows name rest := (findLinux_text hname hne).mp hfind
    rw [readOffset_of_shows hname hne hshows]
    rcases numberAt_or rest with ⟨n, hn⟩ | hnone
    · exact Or.inr ⟨rest, n, hshows, hn, readNumber_of_numberAt hn⟩
    · exact Or.inl hnone

theorem GamedataDocument.ownOffset_lt {m : Nat} (h : d.ownOffset name = some m) : m < 2 ^ 31 := by
  obtain ⟨value, -, hvalue⟩ := List.exists_of_findSome?_eq_some h
  cases value with
  | scalar text =>
    rw [Json.offset] at hvalue
    split at hvalue
    · rename_i hdigits
      cases hvalue
      exact hdigits.2.2
    · cases hvalue
  | string body => cases hvalue
  | array items => cases hvalue
  | object members => cases hvalue

theorem newOffset_of_showsOwn (hname : JsonWord name) (hne : ascii "linux" ≠ name)
    (h : d.ShowsOwnOffset name) : newOffset d.text name target = d.overriding name target := by
  have hown : ∀ m, d.ownOffset name = some m → readOffset d.text name = some (m : Int) := by
    intro m hm
    obtain ⟨rest, hshows, hnumber⟩ := h.shown m hm
    have := GamedataDocument.ownOffset_lt hm
    rw [readOffset_of_shows hname hne hshows, readNumber_of_numberAt hnumber, if_pos (by omega)]
  rw [newOffset, GamedataDocument.overriding]
  cases hm : d.ownOffset name with
  | some m =>
    rw [hown m hm, Option.bind_some, if_pos (Int.natCast_nonneg m)]
  | none =>
    rcases readOffset_cases (d := d) hname hne with hread | ⟨rest, n, hshows, hnumber, hread⟩
    · rw [hread]
      rfl
    · obtain ⟨hlow, hnonneg⟩ := h.own rest n hshows hnumber
      have hneg : n < 0 := by
        by_contra hn
        rw [hnonneg (by omega)] at hm
        cases hm
      rw [hread, if_pos (by omega), Option.bind_some, if_neg (by omega)]

theorem showsOwn_of_newOffset (hname : JsonWord name) (hne : ascii "linux" ≠ name)
    (h : ∀ target, newOffset d.text name target = d.overriding name target) :
    d.ShowsOwnOffset name := by
  refine ⟨fun m hm => ?_, fun rest n hshows hnumber => ?_⟩
  · -- a target that is not the number before: it must have been read
    have hread := h (some (-1))
    rw [newOffset, GamedataDocument.overriding, hm] at hread
    rcases readOffset_cases (d := d) hname hne with hminus | ⟨rest, n, hshows, hnumber, hvalue⟩
    · rw [hminus] at hread
      cases hread
    · rw [hvalue] at hread
      split at hread
      · rw [Option.bind_some] at hread
        split at hread
        · cases hread
          exact ⟨rest, hshows, hnumber⟩
        · cases hread
      · cases hread
  · have hread : ∀ target, ((if -2147483648 < n ∧ n < 2147483648 then some n else none).bind fun v =>
        if 0 ≤ v then some v else target) = d.overriding name target := by
      intro target
      rw [← h target, newOffset, readOffset_of_shows hname hne hshows, readNumber_of_numberAt hnumber]
    have hdefined : ∃ v, d.overriding name (some (n + 1)) = some v := by
      rw [GamedataDocument.overriding]
      split
      · exact ⟨_, rfl⟩
      · exact ⟨_, rfl⟩
    obtain ⟨v, hv⟩ := hdefined
    have hnext := hread (some (n + 1))
    rw [hv] at hnext
    split at hnext
    · rename_i hfits
      refine ⟨hfits.1, fun hn => ?_⟩
      rw [Option.bind_some, if_pos hn] at hnext
      cases hnext
      rw [GamedataDocument.overriding] at hv
      split at hv
      · rename_i m hm
        have hmn : (m : Int) = n := Option.some.inj hv
        rw [hm, ← hmn, Int.toNat_natCast]
      · have := Option.some.inj hv
        omega
    · cases hnext

theorem readLinuxString_of_shows (hname : JsonWord name) (hne : ascii "linux" ≠ name)
    (h : d.Shows name rest) : readLinuxString d.text name = readQuoted rest := by
  rw [readLinuxString, (findLinux_text hname hne).mpr h]

/-- What `ReadLinuxString` returns is empty, or a string that the document shows. -/
theorem readLinuxString_cases (hname : JsonWord name) (hne : ascii "linux" ≠ name) :
    readLinuxString d.text name = [] ∨
      ∃ rest, d.Shows name rest ∧ StringAt rest (readLinuxString d.text name) := by
  cases hfind : findLinux d.text name with
  | none =>
    left
    rw [readLinuxString, hfind]
  | some rest =>
    have hshows : d.Shows name rest := (findLinux_text hname hne).mp hfind
    rw [readLinuxString_of_shows hname hne hshows]
    rcases stringAt_or rest with ⟨body, hbody⟩ | hnone
    · exact Or.inr ⟨rest, hshows, (readQuoted_of_stringAt hbody).symm ▸ hbody⟩
    · exact Or.inl hnone

theorem GamedataDocument.ownSignature_ne_nil (h : d.ownSignature name = some body) : body ≠ [] := by
  obtain ⟨value, -, hvalue⟩ := List.exists_of_findSome?_eq_some h
  cases value with
  | string written =>
    rw [Json.signature] at hvalue
    split at hvalue
    · rename_i hne
      cases hvalue
      exact hne
    · cases hvalue
  | scalar text => cases hvalue
  | array items => cases hvalue
  | object members => cases hvalue

theorem newSignature_of_showsOwn (hname : JsonWord name) (hne : ascii "linux" ≠ name)
    (h : d.ShowsOwnSignature name) (sig : Bytes) :
    (if readLinuxString d.text name ≠ [] then readLinuxString d.text name else sig) =
      (d.ownSignature name).getD sig := by
  cases hown : d.ownSignature name with
  | some body =>
    obtain ⟨rest, hshows, hstring⟩ := h.shown body hown
    rw [readLinuxString_of_shows hname hne hshows, readQuoted_of_stringAt hstring, Option.getD_some,
      if_pos (GamedataDocument.ownSignature_ne_nil hown)]
  | none =>
    rw [Option.getD_none]
    refine if_neg fun hread => ?_
    rcases readLinuxString_cases (d := d) hname hne with hempty | ⟨rest, hshows, hstring⟩
    · exact hread hempty
    · rw [h.own rest _ hshows hstring hread] at hown
      cases hown

theorem showsOwn_of_newSignature (hname : JsonWord name) (hne : ascii "linux" ≠ name)
    (h : ∀ sig, (if readLinuxString d.text name ≠ [] then readLinuxString d.text name else sig) =
      (d.ownSignature name).getD sig) : d.ShowsOwnSignature name := by
  refine ⟨fun body hown => ?_, fun rest body hshows hstring hbody => ?_⟩
  · have hread := h []
    have hne_nil := GamedataDocument.ownSignature_ne_nil hown
    rw [hown, Option.getD_some] at hread
    split at hread
    · rename_i hnonempty
      rcases readLinuxString_cases (d := d) hname hne with hempty | ⟨rest, hshows, hstring⟩
      · exact absurd hempty hnonempty
      · exact ⟨rest, hshows, hread ▸ hstring⟩
    · exact absurd hread.symm hne_nil
  · -- a signature before that is longer than the one that is read
    have hread := h (quote :: body)
    rw [readLinuxString_of_shows hname hne hshows, readQuoted_of_stringAt hstring, if_pos hbody] at hread
    cases hown : d.ownSignature name with
    | some own =>
      rw [hown, Option.getD_some] at hread
      rw [hread]
    | none =>
      rw [hown, Option.getD_none] at hread
      exact absurd hread.symm (List.cons_ne_self quote body)

/-- `LoadGamedata` overrides every target by the name's own entry, and nothing else, exactly for the
documents that show each name's own value behind its first mention. -/
theorem gamedata_from_own_entry_iff (d : GamedataDocument) :
    (∀ t : OffsetTarget, (∀ g, (loadGamedata (some d.text) g).offset t =
      d.overriding t.key (g.offset t)) ↔ d.ShowsOwnOffset t.key) ∧
    ((∀ g, (loadGamedata (some d.text) g).utilRemoveSig =
      (d.ownSignature (ascii "UTIL_Remove")).getD g.utilRemoveSig) ↔
        d.ShowsOwnSignature (ascii "UTIL_Remove")) := by
  refine ⟨fun t => ⟨fun h => ?_, fun h g => ?_⟩, ⟨fun h => ?_, fun h g => ?_⟩⟩
  · refine showsOwn_of_newOffset t.jsonWord t.linux_ne_key fun target => ?_
    rw [← h ⟨fun _ => target, []⟩, offset_loadGamedata]
  · rw [offset_loadGamedata]
    exact newOffset_of_showsOwn t.jsonWord t.linux_ne_key h
  · refine showsOwn_of_newSignature jsonWord_utilRemove (by decide) fun sig => ?_
    rw [← h ⟨fun _ => none, sig⟩, utilRemoveSig_loadGamedata]
  · rw [utilRemoveSig_loadGamedata]
    exact newSignature_of_showsOwn jsonWord_utilRemove (by decide) h g.utilRemoveSig

/-- An entry with a Windows offset only, in front of one with a Linux offset. -/
def windowsOnly : GamedataDocument where
  entries :=
    [(ascii "CEntityIdentity::Size",
        [(ascii "offsets", .object [(ascii "windows", .scalar (ascii "112"))])]),
      (ascii "CEntityIdentity::m_pInstance",
        [(ascii "offsets", .object [(ascii "linux", .scalar (ascii "8"))])])]
  blanks := fun _ => []
  distinct := by decide
  wellFormed := by decide +kernel
  blank := by simp

/-- The size of an identity becomes the instance offset of the next entry. -/
theorem size_from_next_entry : windowsOnly.ownOffset (ascii "CEntityIdentity::Size") = none ∧
    ∀ g, (loadGamedata (some windowsOnly.text) g).offset .entIdentitySize = some 8 := by
  have hread : readOffset windowsOnly.text (ascii "CEntityIdentity::Size") = some 8 := by
    decide +kernel
  refine ⟨by decide +kernel, fun g => ?_⟩
  rw [offset_loadGamedata, newOffset, OffsetTarget.key, hread]
  rfl

end Botid
