import Botid.GamedataReads

/-! The usual layout of `gamedata.json`, and that it is read from the right entries. -/
namespace Botid

open QuotedText

namespace GamedataDocument

/-- The pieces of the document without the blanks. -/
abbrev tokens (d : GamedataDocument) : List (Piece UInt8) :=
  (Json.object (d.entries.map fun e => (e.1, Json.object e.2))).pieces

/-- Every value stands on the line of its colon. -/
def Inline (d : GamedataDocument) : Prop :=
  ∀ i, d.tokens[i]? = some (mark colon) → ∀ c ∈ d.blanks (i + 1), isSpaceOrTab c = true

/-- No string mentions the name. -/
def Unmentioned (d : GamedataDocument) (name : Bytes) : Prop :=
  ∀ p ∈ d.tokens, ¬ p.Mentions quote name

/-- The name is not mentioned before its own entry; the entry starts with its one group, and nothing
in the group mentions `linux` before the value. -/
def LaidOut (d : GamedataDocument) (name : Bytes) (value : Json) : Prop :=
  ∃ before group items items' members after,
    d.entries = before ++
      (name, (group, Json.object (items ++ (ascii "linux", value) :: items')) :: members) :: after ∧
    (group = ascii "offsets" ∨ group = ascii "signatures") ∧
    ascii "offsets" ∉ members.map Prod.fst ∧ ascii "signatures" ∉ members.map Prod.fst ∧
    (∀ p ∈ membersPieces [] (before.map fun e => (e.1, Json.object e.2)), ¬ p.Mentions quote name) ∧
    ∀ p ∈ membersPieces [] items, ¬ p.Mentions quote (ascii "linux")

end GamedataDocument

variable {d : GamedataDocument} {name rest rest' digits body : Bytes} {value : Json}
  {p : Piece UInt8} {pre post lead : List (Piece UInt8)} {blanks : Nat → Bytes} {i n : Nat}
  {m : Bytes × Json} {ms ms' : List (Bytes × Json)}

theorem not_mentions_mark {c : UInt8} {w : Bytes} : ¬ (mark c).Mentions quote w := id

/-- Blanks mention nothing: a search stops at the same piece. -/
theorem behind_spaced {w : Bytes} (hpre : ∀ p ∈ pre, ¬ p.Mentions quote w) (hp : p.Mentions quote w) :
    behind quote w (spaced blanks i (pre ++ p :: post)) =
      some (spaced blanks (i + pre.length + 1) post) := by
  induction pre generalizing i with
  | nil =>
    rw [List.nil_append, spaced, behind_of_not_mentions id, behind_of_mentions hp]
    rfl
  | cons a pre ih =>
    rw [List.cons_append, spaced, behind_of_not_mentions id,
      behind_of_not_mentions (hpre a List.mem_cons_self), ih fun p hp => hpre p (List.mem_cons_of_mem a hp),
      List.length_cons]
    exact congrArg (fun k => some (spaced blanks k post)) (by omega)

theorem behind_spaced_none {w : Bytes} (hpre : ∀ p ∈ pre, ¬ p.Mentions quote w) :
    behind quote w (spaced blanks i pre) = none := by
  induction pre generalizing i with
  | nil =>
    rw [spaced, behind_of_not_mentions id]
    rfl
  | cons a pre ih =>
    rw [spaced, behind_of_not_mentions id, behind_of_not_mentions (hpre a List.mem_cons_self)]
    exact ih fun p hp => hpre p (List.mem_cons_of_mem a hp)

/-- Members up to one of them, its own pieces, and the others behind a comma. -/
theorem membersPieces_append (lead : List (Piece UInt8)) (ms : List (Bytes × Json)) (m : Bytes × Json)
    (ms' : List (Bytes × Json)) : ∃ lead', (∀ p ∈ lead', p ∈ lead ∨ p = mark comma) ∧
    membersPieces lead (ms ++ m :: ms') =
      membersPieces lead ms ++ (lead' ++ (memberPieces m ++ membersPieces [mark comma] ms')) := by
  induction ms generalizing lead with
  | nil =>
    refine ⟨lead, fun p hp => Or.inl hp, ?_⟩
    rw [List.nil_append, membersPieces, membersPieces]
    rfl
  | cons m' ms ih =>
    obtain ⟨lead', hlead, hms⟩ := ih [mark comma]
    refine ⟨lead', fun p hp => Or.inr ?_, ?_⟩
    · simpa using hlead p hp
    · rw [List.cons_append, membersPieces, membersPieces, hms]
      simp only [List.append_assoc]

theorem quoted_mem_membersPieces {key : Bytes} (h : key ∈ ms.map Prod.fst) :
    .quoted key ∈ membersPieces lead ms := by
  obtain ⟨⟨key', value⟩, hm, rfl⟩ := List.mem_map.mp h
  obtain ⟨before, after, rfl⟩ := List.append_of_mem hm
  obtain ⟨lead', -, hpieces⟩ := membersPieces_append lead before (key', value) after
  rw [hpieces, memberPieces]
  simp

/-- What stands around the value of a name that is laid out. -/
theorem tokens_of_laidOut (h : d.LaidOut name value) : ∃ pre between c post,
      d.tokens = pre ++ .quoted name :: (between ++ .quoted (ascii "linux") :: mark colon ::
        (value.pieces ++ mark c :: post)) ∧
      (∀ p ∈ pre, ¬ p.Mentions quote name) ∧
      (∀ p ∈ between, ¬ p.Mentions quote (ascii "linux")) ∧ isDigit c = false := by
  obtain ⟨before, group, items, items', members, after, hentries, hgroup, -, -, hbefore, hitems⟩ := h
  obtain ⟨lead, hlead, houter⟩ := membersPieces_append []
    (before.map fun e => (e.1, Json.object e.2))
    (name, Json.object ((group, Json.object (items ++ (ascii "linux", value) :: items')) :: members))
    (after.map fun e => (e.1, Json.object e.2))
  obtain ⟨lead', hlead', hinner⟩ := membersPieces_append [] items (ascii "linux", value) items'
  have hmarks : ∀ {l : List (Piece UInt8)} {w : Bytes}, (∀ p ∈ l, p ∈ [] ∨ p = mark comma) →
      ∀ p ∈ l, ¬ p.Mentions quote w := by
    intro l w hl p hp
    rcases hl p hp with hp | rfl
    · cases hp
    · exact not_mentions_mark
  -- the value is followed by a comma or by the end of its group
  obtain ⟨c, post, hrest, hc⟩ : ∃ c post, membersPieces [mark comma] items' ++ [mark closeBrace] =
      mark c :: post ∧ isDigit c = false := by
    cases items' with
    | nil => exact ⟨closeBrace, [], rfl, by decide⟩
    | cons m items' => exact ⟨comma, _, rfl, by decide⟩
  refine ⟨mark openBrace :: (membersPieces [] (before.map fun e => (e.1, Json.object e.2)) ++ lead),
    mark colon :: mark openBrace :: .quoted group :: mark colon :: mark openBrace ::
      (membersPieces [] items ++ lead'), c, post ++ (membersPieces [mark comma] members ++
        mark closeBrace :: (membersPieces [mark comma] (after.map fun e => (e.1, Json.object e.2)) ++
          [mark closeBrace])), ?_, ?_, ?_, hc⟩
  · have hpost : mark c :: (post ++ (membersPieces [mark comma] members ++ mark closeBrace ::
        (membersPieces [mark comma] (after.map fun e => (e.1, Json.object e.2)) ++ [mark closeBrace]))) =
        membersPieces [mark comma] items' ++ mark closeBrace :: (membersPieces [mark comma] members ++
          mark closeBrace :: (membersPieces [mark comma] (after.map fun e => (e.1, Json.object e.2)) ++
            [mark closeBrace])) := by
      rw [← List.cons_append, ← hrest, List.append_assoc, List.singleton_append]
    rw [hpost, GamedataDocument.tokens, hentries, List.map_append, List.map_cons, Json.pieces, houter,
      memberPieces, Json.pieces, membersPieces, memberPieces, Json.pieces, hinner, memberPieces]
    simp only [List.append_assoc, List.cons_append, List.nil_append]
  · intro p hp
    rcases List.mem_cons.mp hp with rfl | hp
    · exact not_mentions_mark
    · rcases List.mem_append.mp hp with hp | hp
      · exact hbefore p hp
      · exact hmarks hlead p hp
  · intro p hp
    simp only [List.mem_cons, List.mem_append] at hp
    rcases hp with rfl | rfl | rfl | rfl | rfl | hp | hp
    · exact not_mentions_mark
    · exact not_mentions_mark
    · rcases hgroup with rfl | rfl <;> decide
    · exact not_mentions_mark
    · exact not_mentions_mark
    · exact hitems p hp
    · exact hmarks hlead' p hp

theorem not_isDigit_of_isSpace {c : UInt8} (h : isSpace c = true) : isDigit c = false := by
  rw [isSpace, decide_eq_true_eq] at h
  rcases h with rfl | rfl | rfl | rfl <;> decide

/-- A value of one piece is shown for the name it is laid out for, behind spaces and tabs only. -/
theorem shows_of_laidOut (h : d.LaidOut name value) (hinline : d.Inline) (hvalue : value.pieces = [p]) :
    ∃ gap tail, d.Shows name (gap ++ (p.text quote ++ tail)) ∧ (∀ c ∈ gap, isSpaceOrTab c = true) ∧
      ∀ c ∈ tail.head?, isDigit c = false := by
  obtain ⟨pre, between, c, post, htokens, hpre, hbetween, hc⟩ := tokens_of_laidOut h
  rw [hvalue] at htokens
  have hname : behind quote name d.pieces = some (spaced d.blanks (0 + pre.length + 1)
      (between ++ .quoted (ascii "linux") :: mark colon :: ([p] ++ mark c :: post))) := by
    rw [GamedataDocument.pieces, ← GamedataDocument.tokens, htokens]
    exact behind_spaced hpre (mentions_quoted.mpr (List.suffix_refl _))
  have hlinux : behind quote (ascii "linux") (spaced d.blanks (0 + pre.length + 1)
      (between ++ .quoted (ascii "linux") :: mark colon :: ([p] ++ mark c :: post))) =
        some (spaced d.blanks (0 + pre.length + 1 + between.length + 1)
          (mark colon :: ([p] ++ mark c :: post))) :=
    behind_spaced hbetween (mentions_quoted.mpr (List.suffix_refl _))
  generalize hk : 0 + pre.length + 1 + between.length + 1 = k at hlinux
  have hcolon : d.tokens[k]? = some (mark colon) := by
    have hk' : k = (pre ++ Piece.quoted name :: (between ++ [Piece.quoted (ascii "linux")])).length := by
      simp only [List.length_append, List.length_cons, List.length_nil]
      omega
    have hsplit : d.tokens = (pre ++ .quoted name :: (between ++ [.quoted (ascii "linux")])) ++
        mark colon :: ([p] ++ mark c :: post) := by
      rw [htokens]
      simp only [List.append_assoc, List.cons_append, List.nil_append]
    rw [hsplit, hk', List.getElem?_append_right (Nat.le_refl _), Nat.sub_self]
    rfl
  refine ⟨d.blanks (k + 1), d.blanks (k + 1 + 1) ++ c :: QuotedText.text quote
    (spaced d.blanks (k + 1 + 1 + 1) post), ?_, hinline k hcolon, ?_⟩
  · refine ⟨_, d.blanks k, by rw [hname, Option.bind_some, hlinux], ?_, ?_⟩
    · simp [spaced, mark, Piece.text]
    · intro hmem
      exact absurd (d.blank k colon hmem) (by decide)
  · intro c' hc'
    cases hblank : d.blanks (k + 1 + 1) with
    | nil =>
      rw [hblank] at hc'
      cases hc'
      exact hc
    | cons b bs =>
      rw [hblank] at hc'
      cases hc'
      exact not_isDigit_of_isSpace (d.blank (k + 1 + 1) c' (by rw [hblank]; exact List.mem_cons_self))

/-- A member is found behind members with other keys. -/
theorem lookup_append_cons {β : Type} {key : Bytes} {v : β} {l l' : List (Bytes × β)}
    (h : key ∉ l.map Prod.fst) : (l ++ (key, v) :: l').lookup key = some v := by
  refine List.lookup_eq_some_iff.mpr ⟨l, l', rfl, fun m hm => ?_⟩
  have hne : key ≠ m.1 := fun heq => h (List.mem_map.mpr ⟨m, hm, heq.symm⟩)
  simpa using hne

theorem lookup_eq_none {β : Type} {key : Bytes} {l : List (Bytes × β)} (h : key ∉ l.map Prod.fst) :
    l.lookup key = none := by
  refine List.lookup_eq_none_iff.mpr fun m hm => ?_
  have hne : key ≠ m.1 := fun heq => h (List.mem_map.mpr ⟨m, hm, heq.symm⟩)
  simpa using hne

/-- Nothing is shown for a name that no string mentions. -/
theorem not_shows_of_unmentioned (h : d.Unmentioned name) : ¬ d.Shows name rest := by
  rintro ⟨post, -, hpost, -⟩
  rw [GamedataDocument.pieces, ← GamedataDocument.tokens, behind_spaced_none h] at hpost
  cases hpost

theorem linuxValues_of_unmentioned (h : d.Unmentioned name) : d.linuxValues name = [] := by
  have hkey : name ∉ d.entries.map Prod.fst := by
    intro hmem
    refine h (.quoted name) ?_ (mentions_quoted.mpr (List.suffix_refl _))
    have hkeys : (d.entries.map fun e => (e.1, Json.object e.2)).map Prod.fst = d.entries.map Prod.fst := by
      rw [List.map_map]
      rfl
    rw [GamedataDocument.tokens, Json.pieces]
    refine List.mem_cons_of_mem _ (List.mem_append_left _ (quoted_mem_membersPieces ?_))
    rwa [hkeys]
  rw [GamedataDocument.linuxValues, lookup_eq_none hkey]

theorem showsOwnOffset_of_unmentioned (h : d.Unmentioned name) : d.ShowsOwnOffset name where
  shown n hn := by
    rw [GamedataDocument.ownOffset, linuxValues_of_unmentioned h] at hn
    cases hn
  own rest n hshows := absurd hshows (not_shows_of_unmentioned h)

theorem showsOwnSignature_of_unmentioned (h : d.Unmentioned name) : d.ShowsOwnSignature name where
  shown body hbody := by
    rw [GamedataDocument.ownSignature, linuxValues_of_unmentioned h] at hbody
    cases hbody
  own rest body hshows := absurd hshows (not_shows_of_unmentioned h)

theorem linuxValues_of_laidOut (h : d.LaidOut name value) : d.linuxValues name = [value] := by
  obtain ⟨before, group, items, items', members, after, hentries, hgroup, hoffsets, hsignatures, -,
    hitems⟩ := h
  have hbefore : name ∉ before.map Prod.fst := by
    have hdistinct := d.distinct
    rw [hentries, List.map_append, List.map_cons] at hdistinct
    intro hmem
    exact (List.nodup_append.mp hdistinct).2.2 name hmem name List.mem_cons_self rfl
  have hlinux : ascii "linux" ∉ items.map Prod.fst := by
    intro hmem
    exact hitems _ (quoted_mem_membersPieces hmem) (mentions_quoted.mpr (List.suffix_refl _))
  have hmember : (Json.object (items ++ (ascii "linux", value) :: items')).member (ascii "linux") =
      some value := lookup_append_cons hlinux
  have hother : (ascii "offsets" == ascii "signatures") = false := by decide
  have hother' : (ascii "signatures" == ascii "offsets") = false := by decide
  rw [GamedataDocument.linuxValues, hentries, lookup_append_cons hbefore]
  rcases hgroup with rfl | rfl
  · simp [List.lookup_cons, hmember, lookup_eq_none hsignatures, hother']
  · simp [List.lookup_cons, hmember, lookup_eq_none hoffsets, hother]

theorem GamedataDocument.Shows.unique (hname : JsonWord name) (hne : ascii "linux" ≠ name)
    (h : d.Shows name rest) (h' : d.Shows name rest') : rest = rest' := by
  have hfind := (findLinux_text hname hne).mpr h
  rw [(findLinux_text hname hne).mpr h'] at hfind
  exact (Option.some.inj hfind).symm

/-- A number that fits is the only one that is written at its place. -/
theorem NumberAt.unique {s : Bytes} {n n' : Int} (h : NumberAt s n) (h' : NumberAt s n')
    (hlow : -2147483648 < n) (hhigh : n < 2147483648) : n' = n := by
  have hread := readNumber_of_numberAt h
  rw [if_pos ⟨hlow, hhigh⟩, readNumber_of_numberAt h'] at hread
  split at hread
  · exact Option.some.inj hread
  · cases hread

theorem StringAt.unique {s body body' : Bytes} (h : StringAt s body) (h' : StringAt s body') :
    body' = body := by
  rw [← readQuoted_of_stringAt h, readQuoted_of_stringAt h']

/-- A number in the usual layout is the one that is shown. -/
theorem showsOwnOffset_of_laidOut (hname : JsonWord name) (hne : ascii "linux" ≠ name)
    (hinline : d.Inline) (h : d.LaidOut name (.scalar digits))
    (hn : (Json.scalar digits).offset = some n) : d.ShowsOwnOffset name := by
  have hown : d.ownOffset name = some n := by
    rw [GamedataDocument.ownOffset, linuxValues_of_laidOut h]
    simp [hn]
  have hlt := GamedataDocument.ownOffset_lt hown
  obtain ⟨gap, tail, hshows, hgap, htail⟩ := shows_of_laidOut h hinline (by rw [Json.pieces])
  rw [Piece.text] at hshows
  have hnumber : NumberAt (gap ++ (digits ++ tail)) n := by
    rw [Json.offset] at hn
    split at hn
    · rename_i hdigits
      obtain ⟨hne, hall, -⟩ := hdigits
      cases hn
      exact ⟨gap, digits, tail, hgap, hne, by simpa using hall, htail, Or.inl ⟨rfl, rfl⟩⟩
    · cases hn
  refine ⟨fun m hm => ?_, fun rest m hrest hm => ?_⟩
  · rw [hown, Option.some.injEq] at hm
    exact ⟨_, hshows, hm ▸ hnumber⟩
  · rw [hrest.unique hname hne hshows] at hm
    have hmn : m = n := hnumber.unique hm (by omega) (by omega)
    exact ⟨by omega, fun _ => by rw [hown, hmn, Int.toNat_natCast]⟩

/-- And so is a string that is not empty. -/
theorem showsOwnSignature_of_laidOut (hname : JsonWord name) (hne : ascii "linux" ≠ name)
    (hinline : d.Inline) (h : d.LaidOut name (.string body)) (hbody : body ≠ [])
    (hplain : quote ∉ body) : d.ShowsOwnSignature name := by
  have hown : d.ownSignature name = some body := by
    rw [GamedataDocument.ownSignature, linuxValues_of_laidOut h]
    simp [Json.signature, hbody]
  obtain ⟨gap, tail, hshows, hgap, -⟩ := shows_of_laidOut h hinline (by rw [Json.pieces])
  have hstring : StringAt (gap ++ ((Piece.quoted body).text quote ++ tail)) body :=
    ⟨gap, tail, hgap, hplain, by simp [Piece.text]⟩
  refine ⟨fun own howns => ?_, fun rest own hrest hstring' _ => ?_⟩
  · rw [hown, Option.some.injEq] at howns
    exact ⟨_, hshows, howns ▸ hstring⟩
  · rw [hrest.unique hname hne hshows] at hstring'
    rw [hown, hstring.unique hstring']

/-- Every name that `LoadGamedata` asks for is laid out as usual, or is not mentioned at all. -/
structure GamedataDocument.Usual (d : GamedataDocument) : Prop where
  inline : d.Inline
  offset : ∀ t : OffsetTarget, d.Unmentioned t.key ∨
    ∃ digits n, d.LaidOut t.key (.scalar digits) ∧ (Json.scalar digits).offset = some n
  signature : d.Unmentioned (ascii "UTIL_Remove") ∨
    ∃ body, d.LaidOut (ascii "UTIL_Remove") (.string body) ∧ body ≠ [] ∧ quote ∉ body

/-- A document in the usual layout overrides by the names' own entries. -/
theorem loadGamedata_of_usual (h : d.Usual) (g : Gamedata) :
    (∀ t, (loadGamedata (some d.text) g).offset t = d.overriding t.key (g.offset t)) ∧
      (loadGamedata (some d.text) g).utilRemoveSig =
        (d.ownSignature (ascii "UTIL_Remove")).getD g.utilRemoveSig := by
  constructor
  · intro t
    rw [offset_loadGamedata]
    apply newOffset_of_showsOwn t.jsonWord t.linux_ne_key
    rcases h.offset t with hnone | ⟨digits, n, hlaid, hn⟩
    · exact showsOwnOffset_of_unmentioned hnone
    · exact showsOwnOffset_of_laidOut t.jsonWord t.linux_ne_key h.inline hlaid hn
  · rw [utilRemoveSig_loadGamedata]
    apply newSignature_of_showsOwn jsonWord_utilRemove (by decide)
    rcases h.signature with hnone | ⟨body, hlaid, hbody, hplain⟩
    · exact showsOwnSignature_of_unmentioned hnone
    · exact showsOwnSignature_of_laidOut jsonWord_utilRemove (by decide) h.inline hlaid hbody hplain

end Botid
