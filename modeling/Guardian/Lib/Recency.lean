import Guardian.Lib.OrderedMap

/-!
# Lists in order of writing

The oldest entry comes first. Writing a key moves it to the end, and a bound keeps the
entries written last.
-/

namespace Recency
variable {K V α : Type} [DecidableEq K]

def rewrite (l : List (K × V)) (k : K) (v : V) : List (K × V) :=
  l.filter (fun e => decide (e.1 ≠ k)) ++ [(k, v)]

def recent (n : ℕ) (l : List α) : List α := if n = 0 then l else l.drop (l.length - n)

theorem recent_zero (l : List α) : recent 0 l = l := rfl

theorem recent_of_le {n : ℕ} {l : List α} (h : l.length ≤ n) : recent n l = l := by
  rw [recent, Nat.sub_eq_zero_of_le h, List.drop_zero, ite_self]

theorem recent_suffix (n : ℕ) (l : List α) : recent n l <:+ l := by
  unfold recent
  split
  · exact List.suffix_rfl
  · exact List.drop_suffix _ l

theorem filter_rewrite (keep : K × V → Bool) (l : List (K × V)) (k : K) (v : V) :
    (rewrite l k v).filter keep = (rewrite (l.filter keep) k v).filter keep := by
  unfold rewrite
  simp only [List.filter_append, List.filter_filter]
  refine congrArg (· ++ _) (List.filter_congr fun e _ => ?_)
  cases keep e
  · rfl
  · simp

theorem mem_rewrite {l : List (K × V)} {k : K} {v : V} {e : K × V} :
    e ∈ rewrite l k v ↔ e ∈ l ∧ e.1 ≠ k ∨ e = (k, v) := by
  simp [rewrite]

theorem setEntry_fresh {k : K} {v : V} {l : List (K × V)} (h : ∀ e ∈ l, e.1 ≠ k) :
    OrderedMap.setEntry k v l = l ++ [(k, v)] := by
  induction l with
  | nil => rfl
  | cons e l ih =>
    rw [OrderedMap.setEntry, if_neg (h e (.head _)), ih fun e' he' => h e' (.tail _ he')]
    rfl

theorem entries_set_delete (m : OrderedMap K V) (k : K) (v : V) :
    ((m.delete k).set k v).entries = rewrite m.entries k v :=
  setEntry_fresh fun _ he => of_decide_eq_true (List.mem_filter.mp he).2

end Recency
