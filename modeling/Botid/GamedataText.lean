import Mathlib.Algebra.Group.Nat.Defs
import Botid.Gamedata

/-! `gamedata.json` as a document of entries, and where `LoadGamedata` takes an entry's value from. -/
namespace Botid

open QuotedText

/-- A JSON value. Strings and keys are as they are written between their quotes. -/
inductive Json
  | scalar (text : Bytes)
  | string (body : Bytes)
  | array (items : List Json)
  | object (members : List (Bytes × Json))

/-- One byte outside strings. -/
def mark (c : UInt8) : Piece UInt8 := .plain [c]

mutual

/-- A value as it is written, blanks aside. -/
def Json.pieces : Json → List (Piece UInt8)
  | .scalar text => [.plain text]
  | .string body => [.quoted body]
  | .array items => mark openBracket :: (itemsPieces [] items ++ [mark closeBracket])
  | .object members => mark openBrace :: (membersPieces [] members ++ [mark closeBrace])

/-- The items of an array, from the second one on behind a comma. -/
def itemsPieces (lead : List (Piece UInt8)) : List Json → List (Piece UInt8)
  | [] => []
  | item :: items => lead ++ (item.pieces ++ itemsPieces [mark comma] items)

def memberPieces : Bytes × Json → List (Piece UInt8)
  | (key, value) => .quoted key :: mark colon :: value.pieces

def membersPieces (lead : List (Piece UInt8)) : List (Bytes × Json) → List (Piece UInt8)
  | [] => []
  | member :: members => lead ++ (memberPieces member ++ membersPieces [mark comma] members)

end

/-- Any blanks before every piece, and at the end. -/
def spaced (blanks : Nat → Bytes) : Nat → List (Piece UInt8) → List (Piece UInt8)
  | i, [] => [.plain (blanks i)]
  | i, p :: ps => .plain (blanks i) :: p :: spaced blanks (i + 1) ps

/-- The bytes of blanks, punctuation, numbers, `true`, `false` and `null`. -/
def isStructural (c : UInt8) : Bool :=
  isSpace c || (ascii "\x7b\x7d[]:,+-.0123456789Eaeflnrstu").contains c

abbrev backslash : UInt8 := 92

/-- A piece of a JSON text. -/
abbrev IsJsonPiece (p : Piece UInt8) : Prop :=
  p.WellFormed quote backslash fun c => isStructural c = true

/-- The digits of a number, added up. -/
def digitsValue (digits : Bytes) : Nat := digits.foldl (fun n c => n * 10 + (c.toNat - 48)) 0

def Json.member (key : Bytes) : Json → Option Json
  | .object members => members.lookup key
  | _ => none

/-- An offset: a number that is not negative and below 2^31. -/
def Json.offset : Json → Option Nat
  | .scalar digits =>
    if digits ≠ [] ∧ digits.all isDigit ∧ digitsValue digits < 2 ^ 31 then
      some (digitsValue digits)
    else none
  | _ => none

def Json.signature : Json → Option Bytes
  | .string body => if body ≠ [] then some body else none
  | _ => none

/-- A gamedata document: distinct names with objects, written with any blanks. -/
structure GamedataDocument where
  entries : List (Bytes × List (Bytes × Json))
  blanks : Nat → Bytes
  distinct : (entries.map Prod.fst).Nodup
  wellFormed : ∀ p ∈ (Json.object (entries.map fun e => (e.1, Json.object e.2))).pieces, IsJsonPiece p
  blank : ∀ i, ∀ c ∈ blanks i, isSpace c = true

namespace GamedataDocument

def pieces (d : GamedataDocument) : List (Piece UInt8) :=
  spaced d.blanks 0 (Json.object (d.entries.map fun e => (e.1, Json.object e.2))).pieces

def text (d : GamedataDocument) : Bytes := QuotedText.text quote d.pieces

/-- The linux values of the name's own entry, among its offsets and its signatures. -/
def linuxValues (d : GamedataDocument) (name : Bytes) : List Json :=
  match d.entries.lookup name with
  | none => []
  | some entry => [ascii "offsets", ascii "signatures"].filterMap fun group =>
      (entry.lookup group).bind (Json.member (ascii "linux"))

def ownOffset (d : GamedataDocument) (name : Bytes) : Option Nat :=
  (d.linuxValues name).findSome? Json.offset

def ownSignature (d : GamedataDocument) (name : Bytes) : Option Bytes :=
  (d.linuxValues name).findSome? Json.signature

/-- What is written behind the colon next to the first `"linux"` behind the first mention of the name. -/
def Shows (d : GamedataDocument) (name rest : Bytes) : Prop :=
  ∃ post between, (behind quote name d.pieces).bind (behind quote (ascii "linux")) = some post ∧
    QuotedText.text quote post = between ++ colon :: rest ∧ colon ∉ between

end GamedataDocument

/-- A number is written there, behind spaces and tabs only. -/
def NumberAt (s : Bytes) (n : Int) : Prop :=
  ∃ blanks digits tail, (∀ c ∈ blanks, isSpaceOrTab c = true) ∧ digits ≠ [] ∧
    (∀ c ∈ digits, isDigit c = true) ∧ (∀ c ∈ tail.head?, isDigit c = false) ∧
    (s = blanks ++ (digits ++ tail) ∧ n = digitsValue digits ∨
      s = blanks ++ 45 :: (digits ++ tail) ∧ n = -digitsValue digits)

/-- A string is written there, behind spaces and tabs only. -/
def StringAt (s body : Bytes) : Prop :=
  ∃ blanks tail, (∀ c ∈ blanks, isSpaceOrTab c = true) ∧ quote ∉ body ∧
    s = blanks ++ quote :: (body ++ quote :: tail)

namespace GamedataDocument

/-- The number shown for a name is the one of its own entry, or a negative one that says nothing; and
an own number is shown. -/
structure ShowsOwnOffset (d : GamedataDocument) (name : Bytes) : Prop where
  shown : ∀ n, d.ownOffset name = some n → ∃ rest, d.Shows name rest ∧ NumberAt rest n
  own : ∀ rest n, d.Shows name rest → NumberAt rest n →
    -2147483648 < n ∧ (0 ≤ n → d.ownOffset name = some n.toNat)

/-- The string shown for a name is the one of its own entry, or empty; and an own string is shown. -/
structure ShowsOwnSignature (d : GamedataDocument) (name : Bytes) : Prop where
  shown : ∀ body, d.ownSignature name = some body → ∃ rest, d.Shows name rest ∧ StringAt rest body
  own : ∀ rest body, d.Shows name rest → StringAt rest body → body ≠ [] → d.ownSignature name = some body

/-- The offset by the document: the number of the name's own entry, or what was there before. -/
def overriding (d : GamedataDocument) (name : Bytes) (target : Option Int) : Option Int :=
  match d.ownOffset name with
  | some n => some n
  | none => target

end GamedataDocument

variable {d : GamedataDocument} {name rest : Bytes} {t : OffsetTarget}

theorem isJsonPiece_spaced {blanks : Nat → Bytes} (hblank : ∀ i, ∀ c ∈ blanks i, isSpace c = true)
    {ps : List (Piece UInt8)} (hps : ∀ p ∈ ps, IsJsonPiece p) (i : Nat) :
    ∀ p ∈ spaced blanks i ps, IsJsonPiece p := by
  have hplain : ∀ i, IsJsonPiece (.plain (blanks i)) := by
    intro i
    have hstructural : ∀ c ∈ blanks i, isStructural c = true := by
      intro c hc
      rw [isStructural, hblank i c hc, Bool.true_or]
    exact ⟨fun hquote => absurd (hblank i quote hquote) (by decide), hstructural⟩
  induction ps generalizing i with
  | nil =>
    intro p hp
    rw [spaced, List.mem_singleton] at hp
    exact hp ▸ hplain i
  | cons p ps ih =>
    intro p' hp'
    rw [spaced, List.mem_cons, List.mem_cons] at hp'
    rcases hp' with rfl | rfl | hp'
    · exact hplain i
    · exact hps p' List.mem_cons_self
    · exact ih (fun p hp => hps p (List.mem_cons_of_mem _ hp)) (i + 1) p' hp'

theorem GamedataDocument.isJsonPiece : ∀ p ∈ d.pieces, IsJsonPiece p :=
  isJsonPiece_spaced d.blank d.wellFormed 0

/-- A word that a JSON text can hold in strings only. -/
abbrev JsonWord (w : Bytes) : Prop := Word quote backslash (fun c => isStructural c = true) w

theorem jsonWord_of (hquote : quote ∉ name) (hlast : name.getLast? ≠ some backslash)
    (hforeign : ∃ c ∈ name, isStructural c = false) : JsonWord name where
  no_quote := hquote
  no_escape := by
    rintro u rfl
    simp at hlast
  foreign := by
    obtain ⟨c, hc, hplain⟩ := hforeign
    exact ⟨c, hc, by simp [hplain]⟩

theorem jsonWord_linux : JsonWord (ascii "linux") := jsonWord_of (by decide) (by decide) (by decide)

theorem jsonWord_utilRemove : JsonWord (ascii "UTIL_Remove") :=
  jsonWord_of (by decide) (by decide) (by decide)

theorem OffsetTarget.jsonWord : JsonWord t.key := by
  cases t <;> exact jsonWord_of (by decide) (by decide) (by decide)

/-- The three searches, piece by piece. -/
theorem findLinux_pieces (hname : JsonWord name) (hne : ascii "linux" ≠ name) : findLinux d.text name =
    ((behind quote name d.pieces).bind (behind quote (ascii "linux"))).bind fun post =>
      (find [colon] (QuotedText.text quote post)).map (List.drop 1) := by
  rw [findLinux, GamedataDocument.text, find_text hname d.isJsonPiece]
  cases hbehind : behind quote name d.pieces with
  | none => rfl
  | some post =>
    have hpost : ∀ p ∈ Piece.quoted name :: post, IsJsonPiece p := by
      intro p hp
      rcases List.mem_cons.mp hp with rfl | hp
      · exact escaped_of_not_mem hname.no_quote
      · exact d.isJsonPiece p ((behind_suffix hbehind).subset hp)
    -- the second search starts at the name itself, which is another word
    have hskip : behind quote (ascii "linux") (.quoted name :: post) =
        behind quote (ascii "linux") post :=
      behind_of_not_mentions (mt (mentions_quoted_of_not_mem hname.no_quote).mp hne)
    simp only [Option.map_some, Option.bind_eq_bind, Option.bind_some]
    rw [find_text jsonWord_linux hpost, hskip]
    cases behind quote (ascii "linux") post with
    | none => rfl
    | some post =>
      have hword : colon ∉ quote :: (ascii "linux" ++ [quote]) := by decide
      simp only [Option.map_some, Option.bind_some, text_cons, Piece.text]
      rw [find_skip hword]
      cases find [colon] (QuotedText.text quote post) <;> rfl

/-- The three searches end exactly at what the document shows for the name. -/
theorem findLinux_text (hname : JsonWord name) (hne : ascii "linux" ≠ name) :
    findLinux d.text name = some rest ↔ d.Shows name rest := by
  rw [findLinux_pieces hname hne, Option.bind_eq_some_iff, GamedataDocument.Shows]
  refine exists_congr fun post => ?_
  rw [find_byte_iff, exists_and_left]

theorem OffsetTarget.linux_ne_key : ascii "linux" ≠ t.key := by
  cases t <;> decide

end Botid
