import Guardian.Lib.Text

/-!
# Splitting on a character

The pieces of a split, the first of them by `takeWhile`, and the tokens of a separated list
without the blank ones.
-/

namespace Text
variable {α : Type} [DecidableEq α]

def after (a : α) (xs : List α) : List α := (xs.dropWhile (· ≠ a)).tail

theorem splitOn_eq (a : α) (xs : List α) : xs.splitOn a =
    xs.takeWhile (· ≠ a) :: if a ∈ xs then (after a xs).splitOn a else [] := by
  by_cases h : a ∈ xs
  · have hsplit : xs = xs.takeWhile (· ≠ a) ++ a :: after a xs := by
      obtain ⟨b, rest, hrest⟩ : ∃ b rest, xs.dropWhile (· ≠ a) = b :: rest := by
        refine List.exists_cons_of_ne_nil fun hnil => ?_
        simpa using List.dropWhile_eq_nil_iff.mp hnil a h
      have hb : b = a := by
        have hhead := List.head?_dropWhile_not (· ≠ a) xs
        rw [hrest] at hhead
        simpa using hhead
      subst hb
      rw [after, hrest, List.tail_cons, ← hrest, List.takeWhile_append_dropWhile]
    have hfresh : a ∉ xs.takeWhile (· ≠ a) := fun hmem => by
      simpa using List.mem_takeWhile_imp hmem
    rw [if_pos h]
    conv_lhs => rw [hsplit]
    exact List.splitOn_append_cons_self_of_not_mem hfresh _
  · have hall : xs.takeWhile (· ≠ a) = xs :=
      List.takeWhile_eq_self_iff.mpr fun x hx => by
        have hne : x ≠ a := fun heq => h (heq ▸ hx)
        simpa using hne
    rw [if_neg h, hall, List.splitOn_eq_singleton h]

theorem head_splitOn (a : α) (xs : List α) :
    (xs.splitOn a).head? = some (xs.takeWhile (· ≠ a)) := by
  rw [splitOn_eq]
  rfl

theorem second_splitOn (a : α) (xs : List α) :
    ((xs.splitOn a)[1]?).getD [] = (after a xs).takeWhile (· ≠ a) := by
  rw [splitOn_eq]
  by_cases h : a ∈ xs
  · rw [if_pos h, splitOn_eq]
    rfl
  · have hnone : xs.dropWhile (· ≠ a) = [] :=
      List.dropWhile_eq_nil_iff.mpr fun x hx => by
        have hne : x ≠ a := fun heq => h (heq ▸ hx)
        simpa using hne
    rw [if_neg h, after, hnone]
    rfl

theorem exists_mem_splitOn {a b : α} (hne : b ≠ a) (xs : List α) :
    (∃ piece ∈ xs.splitOn a, b ∈ piece) ↔ b ∈ xs := by
  induction xs with
  | nil => simp
  | cons x xs ih =>
    rw [List.splitOn_cons_eq_if_modifyHead, List.mem_cons, ← ih]
    obtain ⟨piece, pieces, hpieces⟩ := List.exists_cons_of_ne_nil (List.splitOn_ne_nil a xs)
    by_cases hx : x = a
    · subst hx
      simp [hne]
    · rw [hpieces]
      simp [hx, or_assoc]

def tokens (separator : Char) (cs : List Char) : List String :=
  ((cs.splitOn separator).map fun piece => String.ofList (trim piece)).filter (· ≠ "")

theorem mem_trim {c : Char} (hc : isWhiteSpace c = false) {cs : List Char} :
    c ∈ trim cs ↔ c ∈ cs := by
  have hdrop : ∀ cs : List Char, c ∈ cs.dropWhile isWhiteSpace ↔ c ∈ cs := fun cs => by
    refine ⟨fun h => (List.dropWhile_sublist _).subset h, fun h => ?_⟩
    rw [← List.takeWhile_append_dropWhile (p := isWhiteSpace) (l := cs), List.mem_append] at h
    refine h.resolve_left fun hblank => ?_
    rw [List.mem_takeWhile_imp hblank] at hc
    cases hc
  rw [trim, List.mem_reverse, hdrop, List.mem_reverse, hdrop]

/-- A character that is neither blank nor the separator is in a token exactly if it is in
the text. -/
theorem exists_mem_tokens (separator : Char) {c : Char} (hne : c ≠ separator)
    (hc : isWhiteSpace c = false) (cs : List Char) :
    (∃ token ∈ tokens separator cs, c ∈ token.toList) ↔ c ∈ cs := by
  rw [← exists_mem_splitOn hne cs]
  constructor
  · rintro ⟨token, htoken, hmem⟩
    obtain ⟨piece, hpiece, rfl⟩ := List.mem_map.mp (List.mem_filter.mp htoken).1
    rw [String.toList_ofList, mem_trim hc] at hmem
    exact ⟨piece, hpiece, hmem⟩
  · rintro ⟨piece, hpiece, hmem⟩
    have hin : c ∈ (String.ofList (trim piece)).toList := by
      rwa [String.toList_ofList, mem_trim hc]
    refine ⟨_, List.mem_filter.mpr ⟨List.mem_map_of_mem hpiece, ?_⟩, hin⟩
    refine decide_eq_true fun hempty => ?_
    rw [hempty] at hin
    cases hin

theorem mem_toLowerCase {c : Char} (hc : c.toNat < 65) {s : String} :
    c ∈ (toLowerCase s).toList ↔ c ∈ s.toList := by
  have hlower : ∀ d : Char, d.toLower = c ↔ d = c := fun d => by
    rcases toLower_eq_or d with hsame | hhigh
    · rw [hsame]
    · constructor
      · rintro rfl
        omega
      · rintro rfl
        delta Char.toLower at hhigh ⊢
        split
        · rename_i hletter
          have hA : 65 ≤ d.toNat := hletter.1
          omega
        · rfl
  rw [toList_toLowerCase, List.mem_map]
  simp only [hlower, exists_eq_right]

end Text
