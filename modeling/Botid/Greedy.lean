import Mathlib.Data.List.Basic

/-! Items in turn claim at most one value each, and none that is taken already. -/
namespace Greedy

variable {κ : Type*} {taken : List κ} {os os' : List (Option κ)} {c : κ}

/-- What is taken behind the claims. -/
def after (taken : List κ) (os : List (Option κ)) : List κ := os.foldl (fun t o => o.toList ++ t) taken

/-- Every claim is for a value that was not taken at its turn. -/
def Fresh : List κ → List (Option κ) → Prop
  | _, [] => True
  | taken, o :: os => (∀ c, o = some c → c ∉ taken) ∧ Fresh (o.toList ++ taken) os

@[simp] theorem after_nil : after taken [] = taken := rfl

@[simp] theorem after_cons {o : Option κ} : after taken (o :: os) = after (o.toList ++ taken) os := rfl

theorem mem_after : c ∈ after taken os ↔ c ∈ taken ∨ some c ∈ os := by
  induction os generalizing taken with
  | nil => simp
  | cons o os ih =>
    have hclaim : some c = o ↔ o = some c := eq_comm
    rw [after_cons, ih, List.mem_append, List.mem_cons, Option.mem_toList, hclaim]
    tauto

theorem Fresh.not_taken (h : Fresh taken os) (hc : some c ∈ os) : c ∉ taken := by
  induction os generalizing taken with
  | nil => cases hc
  | cons o os ih =>
    obtain ⟨hfirst, hrest⟩ := h
    rcases List.mem_cons.mp hc with ho | hc
    · exact hfirst c ho.symm
    · intro htaken
      exact ih hrest hc (List.mem_append_right _ htaken)

/-- No value is claimed twice. -/
theorem Fresh.pairwise (h : Fresh taken os) : os.Pairwise fun o o' => ∀ c, o = some c → o' ≠ some c := by
  induction os generalizing taken with
  | nil => exact List.Pairwise.nil
  | cons o os ih =>
    obtain ⟨-, hrest⟩ := h
    refine List.Pairwise.cons ?_ (ih hrest)
    rintro o' ho' c rfl rfl
    exact hrest.not_taken ho' (by simp)

/-- The first acceptable item stays the first when others stop being acceptable. -/
theorem find?_eq_of_imp {l : List κ} {p q : κ → Bool} (himp : ∀ x, q x = true → p x = true)
    (hfound : ∀ x, l.find? p = some x → q x = true) : l.find? q = l.find? p := by
  induction l with
  | nil => rfl
  | cons x l ih =>
    rw [List.find?_cons] at hfound
    rw [List.find?_cons, List.find?_cons]
    cases hp : p x with
    | true =>
      rw [hp] at hfound
      rw [hfound x rfl]
    | false =>
      rw [hp] at hfound
      have hq : q x = false := by
        rw [Bool.eq_false_iff]
        intro hq
        rw [himp x hq] at hp
        cases hp
      rw [hq]
      exact ih hfound

end Greedy
