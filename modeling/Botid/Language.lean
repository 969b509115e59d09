import Botid.BotInfoLoad
import Botid.JsonText

/-! The language reader finds the first `ServerLanguage` of the top level, and nothing else. -/
namespace Botid

variable {ws X : Bytes} {o : Option Bytes} {out : Bytes}

/-- Another turn of the loop over `core.json` means that a comma was consumed. -/
theorem shrinks_languageTurn : Loop.Shrinks (fun p => p.2.length) languageTurn := by
  intro p
  have hskip := length_skipWhitespace_le (s := p.2)
  have hkey := length_readString_le (s := skipWhitespace p.2)
  rw [← readKey] at hkey
  unfold languageTurn
  dsimp only
  split
  · simp
  · split
    · simp
    · split
      · simp
      · split
        · simp
        · have hcolon := length_matchChar_le (c := colon) (s := (readKey (skipWhitespace p.2)).2)
          have hvalue := length_skipJsonValue_le
            (s := (matchChar colon (readKey (skipWhitespace p.2)).2).2)
          intro h
          exact (length_matchChar_lt h).trans_le (hvalue.trans (hcolon.trans (hkey.trans hskip)))

/-- A member of the top level of `core.json`: any key that is not empty, any value. -/
structure CoreMember where
  head : MemberText
  before : Bytes
  value : Bytes
  trail : Bytes
  key_ne : head.key ≠ []
  before_blank : Blank before
  json : JsonValue value
  trail_blank : Blank trail

def CoreMember.member (m : CoreMember) : MemberText := m.head.withValue (m.before ++ m.value ++ m.trail)

/-- A whole file: one object, and anything behind it. -/
structure CoreText where
  lead : Bytes
  ws : Bytes
  members : List CoreMember
  tail : Bytes
  lead_blank : Blank lead
  ws_blank : Blank ws

def CoreText.text (t : CoreText) : Bytes :=
  objectText t.lead t.ws (t.members.map CoreMember.member) t.tail

def CoreMember.IsLanguage (m : CoreMember) : Prop := m.head.key = ascii "ServerLanguage"

instance (m : CoreMember) : Decidable m.IsLanguage :=
  inferInstanceAs (Decidable (m.head.key = ascii "ServerLanguage"))

/-- The first member `ServerLanguage` of the top level. -/
def CoreText.language (t : CoreText) : Option CoreMember := t.members.find? fun m => m.IsLanguage

/-- The value is the string `out`. -/
def CoreMember.Says (m : CoreMember) (out : Bytes) : Prop := m.value = quote :: (out ++ [quote])

variable {m : CoreMember} {ms : List CoreMember}

theorem languageTurn_text {m : MemberText} (hkey : m.key ≠ []) : languageTurn (o, m.text ++ X) =
    if m.key = ascii "ServerLanguage" then
      ((some (readString (m.value ++ X)).1, (readString (m.value ++ X)).2), false)
    else
      ((none, (matchChar comma (skipJsonValue (m.value ++ X))).2),
        (matchChar comma (skipJsonValue (m.value ++ X))).1) := by
  have hcolon : matchChar colon (m.gap ++ colon :: (m.value ++ X)) = (true, m.value ++ X) :=
    matchChar_text
  unfold languageTurn
  dsimp only
  rw [skipWhitespace_text]
  generalize m.gap ++ colon :: (m.value ++ X) = u at *
  rw [if_neg text_opens, readKey_text]
  dsimp only
  rw [if_neg hkey, hcolon]
  rfl

/-- The loop over what is left of the object: the language it ends with, if any. -/
def readLanguage (s : Bytes) : Option Bytes :=
  (Loop.run (fun p : Option Bytes × Bytes => p.2.length) languageTurn (none, s)).1

theorem readLanguage_blank (hws : Blank ws) : readLanguage (ws ++ closeBrace :: X) = none := by
  have hturn : languageTurn (none, ws ++ closeBrace :: X) = ((none, closeBrace :: X), false) := by
    unfold languageTurn
    dsimp only
    rw [skipWhitespace_blank hws (by decide), if_pos (by simp [peek])]
  rw [readLanguage, Loop.run_of_done shrinks_languageTurn hturn]

/-- A member `ServerLanguage` ends the loop with what its value reads as. -/
theorem readLanguage_found {m : MemberText} (hm : m.key = ascii "ServerLanguage") :
    readLanguage (m.text ++ X) = some (readString (m.value ++ X)).1 := by
  have hturn : languageTurn (none, m.text ++ X) =
      ((some (readString (m.value ++ X)).1, (readString (m.value ++ X)).2), false) := by
    rw [languageTurn_text (by rw [hm]; decide), if_pos hm]
  rw [readLanguage, Loop.run_of_done shrinks_languageTurn hturn]

/-- Any other member is behind the reader, however its value nests. -/
theorem readLanguage_cons (hws : Blank ws) (hm : ¬ m.IsLanguage) :
    readLanguage (membersText ws ((m :: ms).map CoreMember.member) ++ closeBrace :: X) =
      readLanguage (membersText ws (ms.map CoreMember.member) ++ closeBrace :: X) := by
  have hskip : ∀ c Y, c = comma ∨ c = closeBrace →
      skipWhitespace (skipJsonValue (m.member.value ++ c :: Y)) = c :: Y :=
    fun _ _ hc => skipJsonValue_append m.before_blank m.trail_blank m.json hc
  have hkey : ¬ m.member.key = ascii "ServerLanguage" := hm
  have hne : m.member.key ≠ [] := m.key_ne
  cases ms with
  | nil =>
    have hturn : languageTurn (none, m.member.text ++ closeBrace :: X) =
        ((none, closeBrace :: X), false) := by
      rw [languageTurn_text hne, if_neg hkey, matchChar_of_ne (hskip _ _ (Or.inr rfl)) (by decide)]
    rw [List.map_nil, List.map_singleton, membersText, membersText, readLanguage_blank hws,
      readLanguage, Loop.run_of_done shrinks_languageTurn hturn]
  | cons m' ms =>
    have hturn : languageTurn (none,
          membersText ws ((m :: m' :: ms).map CoreMember.member) ++ closeBrace :: X) =
        ((none, membersText ws ((m' :: ms).map CoreMember.member) ++ closeBrace :: X), true) := by
      rw [List.map_cons, List.map_cons, membersText, List.append_assoc, List.cons_append,
        languageTurn_text hne, if_neg hkey, matchChar_self (hskip _ _ (Or.inl rfl))]
    rw [readLanguage, Loop.run_of_again shrinks_languageTurn hturn, readLanguage]

theorem readString_of_ne {c : UInt8} {before s : Bytes} (hbefore : Blank before)
    (hspace : isSpace c = false) (hc : c ≠ quote) : readString (before ++ c :: s) = ([], c :: s) := by
  rw [readString, matchChar_of_ne (skipWhitespace_blank hbefore hspace) hc]

/-- What `ReadString` makes of a value: the string it is, or nothing. -/
theorem readString_says (hout : out ≠ []) :
    (readString (m.member.value ++ X)).1 = out ↔ m.Says out := by
  obtain ⟨head, before, value, trail, -, hbefore, json, -⟩ := m
  change (readString (before ++ value ++ trail ++ X)).1 = out ↔ value = quote :: (out ++ [quote])
  rw [List.append_assoc, List.append_assoc]
  have hother : ∀ {c s}, isSpace c = false → c ≠ quote →
      ((readString (before ++ (c :: s ++ (trail ++ X)))).1 = out ↔ c :: s = quote :: (out ++ [quote])) := by
    intro c s hspace hc
    rw [List.cons_append, readString_of_ne hbefore hspace hc]
    constructor
    · intro h
      exact absurd h.symm hout
    · intro h
      exact absurd (List.cons.inj h).1 hc
  cases json with
  | scalar ne bytes =>
    obtain ⟨c, s, rfl⟩ := List.exists_cons_of_ne_nil ne
    have hc := bytes c List.mem_cons_self
    simp only [isScalarByte, Bool.and_eq_true, Bool.not_eq_true', decide_eq_true_eq] at hc
    exact hother hc.1.1.1.1 hc.1.1.1.2
  | @string t plain =>
    rw [List.cons_append, List.append_assoc, List.singleton_append, readString_append hbefore plain]
    simp
  | enclosed pair inside =>
    rcases pair with ⟨rfl, -⟩ | ⟨rfl, -⟩
    · exact hother (by decide) (by decide)
    · exact hother (by decide) (by decide)

/-- The loop ends with the first member `ServerLanguage`, wherever it stands. -/
theorem readLanguage_members (hws : Blank ws) (hout : out ≠ []) :
    readLanguage (membersText ws (ms.map CoreMember.member) ++ closeBrace :: X) = some out ↔
      ∃ m, ms.find? (fun m => m.IsLanguage) = some m ∧ m.Says out := by
  induction ms with
  | nil =>
    rw [List.map_nil, membersText, readLanguage_blank hws]
    simp
  | cons m ms ih =>
    by_cases hm : m.IsLanguage
    · have hkey : m.member.key = ascii "ServerLanguage" := hm
      rw [List.map_cons, membersText_cons, List.append_assoc, readLanguage_found hkey,
        Option.some.injEq, readString_says hout, List.find?_cons_of_pos (by simpa using hm)]
      simp
    · rw [readLanguage_cons hws hm, ih, List.find?_cons_of_neg (by simpa using hm)]

/-- What the loop over the members sees. -/
def CoreText.inside (t : CoreText) : Bytes :=
  membersText t.ws (t.members.map CoreMember.member) ++ closeBrace :: t.tail

theorem readCssServerLanguage_text (t : CoreText) : readCssServerLanguage (some t.text) =
    match readLanguage t.inside with
    | some language => (decide (language ≠ []), language)
    | none => (false, []) := by
  unfold readCssServerLanguage CoreText.text objectText
  dsimp only
  rw [matchChar_self (skipWhitespace_blank t.lead_blank (by decide)), if_pos rfl]
  rfl

theorem language_read_exactly (t : CoreText) :
    (∀ out, readCssServerLanguage (some t.text) = (true, out) ↔
      out ≠ [] ∧ ∃ m, t.language = some m ∧ m.Says out) ∧
    ((readCssServerLanguage (some t.text)).1 = false →
      readCssServerLanguage (some t.text) = (false, [])) := by
  have hfirst : ∀ {out}, out ≠ [] →
      (readLanguage t.inside = some out ↔ ∃ m, t.language = some m ∧ m.Says out) :=
    fun hout => readLanguage_members t.ws_blank hout
  rw [readCssServerLanguage_text]
  cases hr : readLanguage t.inside with
  | none =>
    rw [hr] at hfirst
    refine ⟨fun out => ?_, fun _ => rfl⟩
    constructor
    · intro h
      cases h
    · rintro ⟨hout, h⟩
      cases (hfirst hout).mpr h
  | some language =>
    rw [hr] at hfirst
    simp only [Option.some.injEq] at hfirst
    simp only [Prod.mk.injEq, decide_eq_true_eq, decide_eq_false_iff_not, not_not]
    refine ⟨fun out => ?_, fun h => ⟨by simp [h], h⟩⟩
    constructor
    · rintro ⟨hne, rfl⟩
      exact ⟨hne, (hfirst hne).mp rfl⟩
    · rintro ⟨hout, h⟩
      have hl := (hfirst hout).mpr h
      exact ⟨hl ▸ hout, hl⟩

end Botid
