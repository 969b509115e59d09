import Mathlib.Data.List.Chain
import Mathlib.Data.List.Infix

/-! Text with quoted strings in it, and the search for a quoted word: it finds the first string that
mentions the word. -/
namespace QuotedText

variable {α : Type*} {q e c : α} {P : α → Prop} {w xs V s pattern : List α}

/-- What a text is made of: strings between quotes, and the rest. -/
inductive Piece (α : Type*)
  | plain (xs : List α)
  | quoted (xs : List α)

def Piece.text (q : α) : Piece α → List α
  | .plain xs => xs
  | .quoted xs => q :: (xs ++ [q])

def text (q : α) (ps : List (Piece α)) : List α := ps.flatMap (Piece.text q)

variable {p : Piece α} {ps pre post : List (Piece α)}

/-- Inside a string a quote stands behind an escape only. -/
def Escaped (q e : α) (xs : List α) : Prop := (q :: xs).IsChain fun a b => b = q → a = e

/-- Outside strings there are only bytes of one kind, and no quote. -/
def Piece.WellFormed (q e : α) (P : α → Prop) : Piece α → Prop
  | .plain xs => q ∉ xs ∧ ∀ c ∈ xs, P c
  | .quoted xs => Escaped q e xs

/-- A word that a search for it between quotes can only find in a string. -/
structure Word (q e : α) (P : α → Prop) (w : List α) : Prop where
  no_quote : q ∉ w
  no_escape : ∀ u, w ≠ u ++ [e]
  foreign : ∃ c ∈ w, ¬ P c

/-- The string is the word, or ends in a quote and the word. -/
def Piece.Mentions (q : α) (w : List α) : Piece α → Prop
  | .plain _ => False
  | .quoted xs => q :: w <:+ q :: xs

@[simp] theorem text_nil : text q ([] : List (Piece α)) = [] := rfl

@[simp] theorem text_cons : text q (p :: ps) = p.text q ++ text q ps := rfl

theorem mentions_quoted : (Piece.quoted xs).Mentions q w ↔ q :: w <:+ q :: xs := Iff.rfl

theorem escaped_of_not_mem (h : q ∉ xs) : Escaped q e xs := by
  have htail : ∀ d, (d :: xs).IsChain fun a b => b = q → a = e := by
    induction xs with
    | nil => exact fun d => .singleton d
    | cons c xs ih =>
      rw [List.mem_cons, not_or] at h
      exact fun d => .cons_cons (fun hc => absurd hc.symm h.1) (ih h.2 c)
  exact htail q

/-- A string without quotes is mentioned as a whole. -/
theorem mentions_quoted_of_not_mem (h : q ∉ xs) : (Piece.quoted xs).Mentions q w ↔ w = xs := by
  rw [mentions_quoted, List.suffix_cons_iff, List.cons.injEq]
  constructor
  · rintro (⟨-, hw⟩ | hsuffix)
    · exact hw
    · exact absurd (hsuffix.subset List.mem_cons_self) h
  · intro hw
    exact Or.inl ⟨rfl, hw⟩

/-- What stands between two quotes outside strings is of the outer kind. -/
theorem outside_strings (hps : ∀ p ∈ ps, p.WellFormed q e P) (hq : q ∉ w)
    (h : w ++ [q] <+: text q ps) : ∀ c ∈ w, P c := by
  induction ps generalizing w with
  | nil =>
    rw [text_nil, List.prefix_nil] at h
    simp at h
  | cons p ps ih =>
    have hp := hps p List.mem_cons_self
    cases p with
    | plain xs =>
      rw [text_cons, Piece.text] at h
      rcases List.prefix_or_prefix_of_prefix h (List.prefix_append xs _) with hshort | hlong
      · exact absurd (hshort.subset (by simp)) hp.1
      · rcases List.prefix_concat_iff.mp hlong with rfl | ⟨w', rfl⟩
        · exact absurd (by simp) hp.1
        · rw [List.append_assoc, List.prefix_append_right_inj] at h
          rw [List.mem_append, not_or] at hq
          intro c hc
          rcases List.mem_append.mp hc with hc | hc
          · exact hp.2 c hc
          · exact ih (fun p hp => hps p (List.mem_cons_of_mem _ hp)) hq.2 h c hc
    | quoted xs =>
      cases w with
      | nil => simp
      | cons d w =>
        rw [text_cons, Piece.text, List.cons_append, List.cons_append, List.cons_prefix_cons] at h
        exact absurd (h.1 ▸ List.mem_cons_self) hq

/-- Inside a string the quoted word stands only at its end. -/
theorem occurs_iff (hw : Word q e P w) (hxs : Escaped q e xs) (hV : V <:+ q :: xs) (hne : V ≠ []) :
    q :: (w ++ [q]) <+: V ++ q :: s ↔ V = q :: w := by
  constructor
  · intro h
    obtain ⟨c, V, rfl⟩ := List.exists_cons_of_ne_nil hne
    rw [List.cons_append, List.cons_prefix_cons] at h
    obtain ⟨rfl, h⟩ := h
    have hV' : V <+: V ++ q :: s := List.prefix_append V _
    rcases List.prefix_or_prefix_of_prefix ((List.prefix_append w [q]).trans h) hV' with
      ⟨V', rfl⟩ | ⟨w', rfl⟩
    · rw [List.append_assoc, List.prefix_append_right_inj] at h
      cases V' with
      | nil => rw [List.append_nil]
      | cons d V' =>
        rw [List.cons_append, List.cons_prefix_cons] at h
        obtain ⟨rfl, -⟩ := h
        -- a quote right behind the word, inside the string: the word ends in an escape
        have hchain := List.IsChain.infix hxs hV.isInfix
        rcases List.eq_nil_or_concat' w with rfl | ⟨u, a, rfl⟩
        · obtain ⟨c, hc, -⟩ := hw.foreign
          simp at hc
        · rw [List.append_assoc, List.singleton_append, List.isChain_cons_append_cons_cons] at hchain
          exact absurd (by rw [hchain.2.1 rfl]) (hw.no_escape u)
    · rw [List.append_assoc, List.prefix_append_right_inj] at h
      cases w' with
      | nil => rw [List.append_nil]
      | cons d w' =>
        rw [List.cons_append, List.cons_prefix_cons] at h
        exact absurd (h.1 ▸ by simp) hw.no_quote
  · rintro rfl
    rw [List.cons_append, List.cons_prefix_cons, List.prefix_append_right_inj]
    exact ⟨rfl, List.prefix_append [q] s⟩

variable [DecidableEq α]

instance : Decidable (Escaped q e xs) := inferInstanceAs (Decidable (List.IsChain _ _))

instance [DecidablePred P] : Decidable (p.WellFormed q e P) := by
  cases p with
  | plain xs => exact inferInstanceAs (Decidable (_ ∧ _))
  | quoted xs => exact inferInstanceAs (Decidable (Escaped q e xs))

instance : Decidable (p.Mentions q w) := by
  cases p with
  | plain xs => exact inferInstanceAs (Decidable False)
  | quoted xs => exact inferInstanceAs (Decidable (_ <:+ _))

/-- The text from the first place on where the pattern stands. -/
def find (pattern : List α) : List α → Option (List α)
  | [] => if pattern = [] then some [] else none
  | c :: s => if pattern <+: c :: s then some (c :: s) else find pattern s

/-- The pieces behind the first mention of the word. -/
def behind (q : α) (w : List α) : List (Piece α) → Option (List (Piece α))
  | [] => none
  | p :: ps => if p.Mentions q w then some ps else behind q w ps

theorem find_of_prefix (h : pattern <+: c :: s) : find pattern (c :: s) = some (c :: s) := if_pos h

theorem find_of_not_prefix (h : ¬ pattern <+: c :: s) : find pattern (c :: s) = find pattern s := if_neg h

theorem behind_of_mentions (h : p.Mentions q w) : behind q w (p :: ps) = some ps := if_pos h

theorem behind_of_not_mentions (h : ¬ p.Mentions q w) : behind q w (p :: ps) = behind q w ps := if_neg h

/-- A search for something that starts with a byte skips what does not hold it. -/
theorem find_skip (h : c ∉ xs) : find (c :: pattern) (xs ++ s) = find (c :: pattern) s := by
  induction xs with
  | nil => rfl
  | cons d xs ih =>
    rw [List.mem_cons, not_or] at h
    rw [List.cons_append, find_of_not_prefix, ih h.2]
    intro hprefix
    exact h.1 (List.cons_prefix_cons.mp hprefix).1

theorem find_byte (h : c ∉ xs) : find [c] (xs ++ c :: s) = some (c :: s) := by
  rw [find_skip h]
  exact find_of_prefix (List.cons_prefix_cons.mpr ⟨rfl, List.nil_prefix⟩)

theorem find_byte_none (h : c ∉ xs) : find [c] xs = none := by
  have hskip : find [c] (xs ++ []) = find [c] [] := find_skip h
  rwa [List.append_nil] at hskip

/-- What is behind the first place of a byte. -/
theorem find_byte_iff : (find [c] xs).map (List.drop 1) = some s ↔ ∃ ys, xs = ys ++ c :: s ∧ c ∉ ys := by
  constructor
  · intro h
    by_cases hc : c ∈ xs
    · obtain ⟨ys, zs, rfl, hys⟩ := List.eq_append_cons_of_mem hc
      rw [find_byte hys, Option.map_some, List.drop_one, List.tail_cons, Option.some.injEq] at h
      exact ⟨ys, by rw [h], hys⟩
    · rw [find_byte_none hc] at h
      cases h
  · rintro ⟨ys, rfl, hys⟩
    rw [find_byte hys]
    rfl

theorem behind_suffix (h : behind q w ps = some post) : post <:+ ps := by
  induction ps with
  | nil => cases h
  | cons p ps ih =>
    rw [behind] at h
    split at h
    · cases h
      exact List.suffix_cons p _
    · exact (ih h).trans (List.suffix_cons p ps)

/-- The search through a string, from any place of it on. -/
theorem find_string (hw : Word q e P w) (hxs : Escaped q e xs) (hV : V <:+ q :: xs) :
    find (q :: (w ++ [q])) (V ++ q :: s) =
      if q :: w <:+ V then some (q :: (w ++ q :: s)) else find (q :: (w ++ [q])) (q :: s) := by
  induction V with
  | nil => rw [if_neg (by simp), List.nil_append]
  | cons c V ih =>
    by_cases hmention : c :: V = q :: w
    · rw [hmention, if_pos (List.suffix_refl _), List.cons_append, find_of_prefix]
      rw [List.cons_prefix_cons, List.prefix_append_right_inj]
      exact ⟨rfl, List.prefix_append [q] s⟩
    · have hnot : ¬ q :: (w ++ [q]) <+: c :: V ++ q :: s :=
        fun h => hmention ((occurs_iff hw hxs hV (by simp)).mp h)
      have hsuffix : q :: w <:+ c :: V ↔ q :: w <:+ V := by
        rw [List.suffix_cons_iff]
        exact or_iff_right fun h => hmention h.symm
      rw [List.cons_append] at hnot
      rw [List.cons_append, find_of_not_prefix hnot, ih ((List.suffix_cons c V).trans hV)]
      simp only [hsuffix]

/-- The search in a whole text finds the first string that mentions the word. -/
theorem find_text (hw : Word q e P w) (hps : ∀ p ∈ ps, p.WellFormed q e P) :
    find (q :: (w ++ [q])) (text q ps) =
      (behind q w ps).map fun post => text q (.quoted w :: post) := by
  induction ps with
  | nil => simp [find, behind]
  | cons p ps ih =>
    have hp := hps p List.mem_cons_self
    have hrest : ∀ p ∈ ps, p.WellFormed q e P := fun p hp => hps p (List.mem_cons_of_mem _ hp)
    cases p with
    | plain xs => rw [text_cons, Piece.text, find_skip hp.1, ih hrest, behind_of_not_mentions id]
    | quoted xs =>
      have hclosing : ¬ q :: (w ++ [q]) <+: q :: text q ps := by
        intro h
        obtain ⟨c, hc, hforeign⟩ := hw.foreign
        exact hforeign (outside_strings hrest hw.no_quote (List.cons_prefix_cons.mp h).2 c hc)
      have hstring : text q (.quoted xs :: ps) = q :: xs ++ q :: text q ps := by
        simp [Piece.text]
      rw [hstring, find_string hw hp (List.suffix_refl _)]
      by_cases hmention : q :: w <:+ q :: xs
      · rw [if_pos hmention, behind_of_mentions (mentions_quoted.mpr hmention)]
        simp [Piece.text]
      · rw [if_neg hmention, behind_of_not_mentions (mt mentions_quoted.mp hmention),
          find_of_not_prefix hclosing, ih hrest]

end QuotedText
