import Mathlib.Data.List.Basic
import Mathlib.Order.Basic
import Mathlib.Order.Monotone.Basic
import Mathlib.Tactic.Common

/-!
# Paging over a list that shrinks

A reader asks for page after page of a list from which entries are taken out between two
requests. As long as the entries taken out were on pages already read, each page is a segment
of the original list, and so is what slides over the boundary in front of it, unread.
-/

namespace Paging
variable {α : Type}

/-- `gone p` are the entries taken out by the time page `p` is read; page numbers start at 1. -/
structure Shrinking (gone : ℕ → α → Bool) : Prop where
  first : ∀ a, gone 1 a = false
  grows : ∀ p a, gone p a = true → gone (p + 1) a = true

section Segments
variable (rows : List α) (size : ℕ) (gone : ℕ → α → Bool)

def openAt (p : ℕ) : List α := rows.filter fun a => !gone p a

def page (p : ℕ) : List α := ((openAt rows gone p).drop ((p - 1) * size)).take size

def goneBy (p : ℕ) : ℕ := rows.countP (gone p)

def pageEnd (p : ℕ) : ℕ := p * size + goneBy rows gone p

/-- What is neither on page `p` nor on a later one: the entries that moved in front of page
`p + 1` when its predecessors shrank. -/
def slid (p : ℕ) : List α :=
  (rows.drop (pageEnd rows size gone p)).take (goneBy rows gone (p + 1) - goneBy rows gone p)

end Segments

variable {rows : List α} {size : ℕ} {gone : ℕ → α → Bool}

theorem goneBy_mono (h : Shrinking gone) (p : ℕ) : goneBy rows gone p ≤ goneBy rows gone (p + 1) :=
  List.countP_mono_left fun a _ => h.grows p a

theorem goneBy_one (h : Shrinking gone) : goneBy rows gone 1 = 0 :=
  List.countP_eq_zero.mpr fun a _ => by simp [h.first a]

theorem goneBy_zero (h : Shrinking gone) : goneBy rows gone 0 = 0 := by
  have hle : goneBy rows gone 0 ≤ goneBy rows gone 1 := goneBy_mono h 0
  rw [goneBy_one h] at hle
  omega

theorem pageEnd_mono (h : Shrinking gone) (p : ℕ) :
    pageEnd rows size gone p ≤ pageEnd rows size gone (p + 1) := by
  have hle : goneBy rows gone p ≤ goneBy rows gone (p + 1) := goneBy_mono h p
  simp only [pageEnd, Nat.add_mul]
  omega

theorem slid_of_end (h : Shrinking gone) {p q : ℕ} (hpq : p ≤ q)
    (hend : rows.length ≤ pageEnd rows size gone p) : slid rows size gone q = [] := by
  have hle : pageEnd rows size gone p ≤ pageEnd rows size gone q :=
    monotone_nat_of_le_succ (pageEnd_mono h) hpq
  rw [slid, List.drop_eq_nil_of_le (hend.trans hle), List.take_nil]

theorem openAt_eq {p q : ℕ} (hkept : ∀ a ∈ rows.drop q, gone p a = false) :
    openAt rows gone p = openAt (rows.take q) gone p ++ rows.drop q := by
  have hsplit : openAt rows gone p =
      openAt (rows.take q) gone p ++ openAt (rows.drop q) gone p := by
    rw [openAt, openAt, openAt, ← List.filter_append, List.take_append_drop]
  rw [hsplit]
  congr 1
  exact List.filter_eq_self.mpr fun a ha => by rw [hkept a ha]; rfl

theorem length_openAt (p : ℕ) :
    (openAt rows gone p).length + goneBy rows gone p = rows.length := by
  rw [openAt, ← List.countP_eq_length_filter, goneBy]
  induction rows with
  | nil => rfl
  | cons a rows ih =>
    rw [List.countP_cons, List.countP_cons, List.length_cons]
    cases gone p a <;> simp <;> omega

theorem goneBy_take {p q : ℕ} (hkept : ∀ a ∈ rows.drop q, gone p a = false) :
    goneBy (rows.take q) gone p = goneBy rows gone p := by
  have hnone : goneBy (rows.drop q) gone p = 0 :=
    List.countP_eq_zero.mpr fun a ha => by simp [hkept a ha]
  have hsum : goneBy rows gone p = goneBy (rows.take q) gone p + goneBy (rows.drop q) gone p := by
    rw [goneBy, goneBy, goneBy, ← List.countP_append, List.take_append_drop]
  omega

theorem page_eq (h : Shrinking gone) {p : ℕ} (hend : pageEnd rows size gone p ≤ rows.length)
    (hkept : ∀ a ∈ rows.drop (pageEnd rows size gone p), gone (p + 1) a = false) :
    page rows size gone (p + 1) =
      (rows.drop (p * size + goneBy rows gone (p + 1))).take size := by
  have hlength : (openAt (rows.take (pageEnd rows size gone p)) gone (p + 1)).length +
      goneBy (rows.take (pageEnd rows size gone p)) gone (p + 1) =
        (rows.take (pageEnd rows size gone p)).length := length_openAt (p + 1)
  rw [goneBy_take hkept, List.length_take, Nat.min_eq_left hend] at hlength
  have hmono : goneBy rows gone p ≤ goneBy rows gone (p + 1) := goneBy_mono h p
  rw [page, openAt_eq hkept, Nat.add_sub_cancel, List.drop_append]
  have hnil :
      (openAt (rows.take (pageEnd rows size gone p)) gone (p + 1)).drop (p * size) = [] := by
    refine List.drop_eq_nil_of_le ?_
    simp only [pageEnd] at hlength ⊢
    omega
  rw [hnil, List.nil_append, List.drop_drop]
  congr 2
  simp only [pageEnd] at hlength ⊢
  omega

theorem page_subset (h : Shrinking gone) {p : ℕ} (hend : pageEnd rows size gone p ≤ rows.length)
    (hkept : ∀ a ∈ rows.drop (pageEnd rows size gone p), gone (p + 1) a = false) :
    ∀ a ∈ page rows size gone (p + 1), a ∈ rows.take (pageEnd rows size gone (p + 1)) := by
  intro a ha
  have hnext : pageEnd rows size gone (p + 1) = p * size + goneBy rows gone (p + 1) + size := by
    simp only [pageEnd, Nat.add_mul]
    omega
  rw [page_eq h hend hkept, List.take_drop] at ha
  rw [hnext]
  exact List.mem_of_mem_drop ha

theorem pageEnd_last (h : Shrinking gone) {p : ℕ} (hsize : 1 ≤ size)
    (hend : pageEnd rows size gone p ≤ rows.length)
    (hkept : ∀ a ∈ rows.drop (pageEnd rows size gone p), gone (p + 1) a = false) :
    (page rows size gone (p + 1)).length = 0 ∨
        (openAt rows gone (p + 1)).length ≤ (p + 1) * size ↔
      rows.length ≤ pageEnd rows size gone (p + 1) := by
  have hlength : (openAt rows gone (p + 1)).length + goneBy rows gone (p + 1) = rows.length :=
    length_openAt (p + 1)
  have hnext : pageEnd rows size gone (p + 1) = p * size + goneBy rows gone (p + 1) + size := by
    simp only [pageEnd, Nat.add_mul]
    omega
  have hpage : (page rows size gone (p + 1)).length =
      min size (rows.length - (p * size + goneBy rows gone (p + 1))) := by
    rw [page_eq h hend hkept, List.length_take, List.length_drop]
  rw [hpage, hnext, Nat.add_mul]
  omega

theorem drop_pageEnd (h : Shrinking gone) {p : ℕ} (hend : pageEnd rows size gone p ≤ rows.length)
    (hkept : ∀ a ∈ rows.drop (pageEnd rows size gone p), gone (p + 1) a = false) :
    rows.drop (pageEnd rows size gone p) = slid rows size gone p ++
      (page rows size gone (p + 1) ++ rows.drop (pageEnd rows size gone (p + 1))) := by
  have hmono : goneBy rows gone p ≤ goneBy rows gone (p + 1) := goneBy_mono h p
  have hstart : p * size + goneBy rows gone (p + 1) =
      pageEnd rows size gone p + (goneBy rows gone (p + 1) - goneBy rows gone p) := by
    rw [pageEnd]
    omega
  have hnext : pageEnd rows size gone (p + 1) = p * size + goneBy rows gone (p + 1) + size := by
    simp only [pageEnd, Nat.add_mul]
    omega
  have hpage : page rows size gone (p + 1) ++ rows.drop (pageEnd rows size gone (p + 1)) =
      (rows.drop (pageEnd rows size gone p)).drop
        (goneBy rows gone (p + 1) - goneBy rows gone p) := by
    rw [page_eq h hend hkept, hnext, ← List.drop_drop (i := size), List.take_append_drop, hstart,
      ← List.drop_drop]
  rw [hpage, slid, List.take_append_drop]

/-- What is read from page `p + 1` on, and what is never read of the rest of the original list. -/
structure ReadFrom (rows : List α) (size : ℕ) (gone : ℕ → α → Bool) (p : ℕ)
    (unread read : List α) : Prop where
  perm : (rows.drop (pageEnd rows size gone p)).Perm (unread ++ read)
  sublist : read.Sublist (rows.drop (pageEnd rows size gone p))
  mem_unread : ∀ a, a ∈ unread ↔ ∃ q ≥ p, a ∈ slid rows size gone q

theorem ReadFrom.last (h : Shrinking gone) {p : ℕ}
    (hend : pageEnd rows size gone p ≤ rows.length)
    (hkept : ∀ a ∈ rows.drop (pageEnd rows size gone p), gone (p + 1) a = false)
    (hreach : rows.length ≤ pageEnd rows size gone (p + 1)) :
    ReadFrom rows size gone p (slid rows size gone p) (page rows size gone (p + 1)) := by
  have hsplit := drop_pageEnd h hend hkept
  rw [List.drop_eq_nil_of_le hreach, List.append_nil] at hsplit
  refine ⟨hsplit ▸ .refl _, hsplit ▸ List.sublist_append_right _ _, fun a => ?_⟩
  constructor
  · exact fun ha => ⟨p, le_rfl, ha⟩
  · rintro ⟨q, hq, ha⟩
    rcases Nat.eq_or_lt_of_le hq with rfl | hlt
    · exact ha
    · rw [slid_of_end h hlt hreach] at ha
      cases ha

theorem ReadFrom.next (h : Shrinking gone) {p : ℕ} {unread read : List α}
    (hend : pageEnd rows size gone p ≤ rows.length)
    (hkept : ∀ a ∈ rows.drop (pageEnd rows size gone p), gone (p + 1) a = false)
    (hrest : ReadFrom rows size gone (p + 1) unread read) :
    ReadFrom rows size gone p (slid rows size gone p ++ unread)
      (page rows size gone (p + 1) ++ read) := by
  refine ⟨?_, ?_, fun a => ?_⟩
  · rw [drop_pageEnd h hend hkept, List.append_assoc]
    refine List.Perm.append_left _ ?_
    refine (hrest.perm.append_left _).trans ?_
    rw [← List.append_assoc, ← List.append_assoc]
    exact List.perm_append_comm.append_right _
  · rw [drop_pageEnd h hend hkept]
    exact (hrest.sublist.append_left _).trans (List.sublist_append_right _ _)
  · rw [List.mem_append, hrest.mem_unread]
    constructor
    · rintro (ha | ⟨q, hq, ha⟩)
      · exact ⟨p, le_rfl, ha⟩
      · exact ⟨q, by omega, ha⟩
    · rintro ⟨q, hq, ha⟩
      rcases Nat.eq_or_lt_of_le hq with rfl | hlt
      · exact .inl ha
      · exact .inr ⟨q, hlt, ha⟩

end Paging
