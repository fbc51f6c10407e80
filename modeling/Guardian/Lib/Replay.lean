import Guardian.Lib.OrderedMap
import Mathlib.Data.List.Sort

/-!
# Replaying a log of writes

Each write carries a position; the replay sorts the writes by position and
applies them in order. Where the writes of one key have different positions,
the value of a key is its latest write, whatever order the log was read in.
-/

structure Write (P K V : Type) where
  position : P
  key : K
  value : V

namespace Write
variable {P K V : Type} [LinearOrder P] [DecidableEq K]

def replay (ws : List (Write P K V)) : OrderedMap K V :=
  (ws.insertionSort (fun a b => a.position ≤ b.position)).foldl (fun m w => m.set w.key w.value)
    .empty

/-- `w` is in the log and no write of its key comes after it. -/
def Latest (ws : List (Write P K V)) (w : Write P K V) : Prop :=
  w ∈ ws ∧ ∀ u ∈ ws, u.key = w.key → u.position ≤ w.position

/-- Two writes of one key never share a position. -/
def Positioned (ws : List (Write P K V)) : Prop :=
  ∀ u ∈ ws, ∀ w ∈ ws, u.key = w.key → u.position = w.position → u = w

omit [LinearOrder P] in
theorem foldl_set_pairs (ws : List (Write P K V)) (m : OrderedMap K V) :
    ws.foldl (fun m w => m.set w.key w.value) m =
      (ws.map fun w => (w.key, w.value)).foldl (fun m w => m.set w.1 w.2) m := by
  rw [List.foldl_map]

theorem find?_reverse_latest {ws : List (Write P K V)}
    (hs : ws.Pairwise (fun a b => a.position ≤ b.position)) {k : K} {w : Write P K V}
    (h : ws.reverse.find? (fun u => decide (u.key = k)) = some w) : w.key = k ∧ Latest ws w := by
  obtain ⟨hk, hbefore⟩ := List.find?_eq_some_iff_append.mp h
  obtain ⟨as, bs, hrev, hnot⟩ := hbefore
  have hw : w.key = k := by simpa using hk
  have hws : ws = bs.reverse ++ w :: as.reverse := by
    rw [← List.reverse_reverse ws, hrev]
    simp
  refine ⟨hw, by simp [hws], fun u hu huk => ?_⟩
  rw [hws] at hu hs
  rcases List.mem_append.mp hu with hu | hu
  · exact (List.pairwise_append.mp hs).2.2 u hu w (by simp)
  · rcases List.mem_cons.mp hu with rfl | hu
    · exact le_rfl
    · have := hnot u (by simpa using hu)
      simp [huk, hw] at this

omit [DecidableEq K] in
theorem latest_unique {ws : List (Write P K V)} (hp : Positioned ws) {u w : Write P K V}
    (hu : Latest ws u) (hw : Latest ws w) (hk : u.key = w.key) : u = w :=
  hp u hu.1 w hw.1 hk (le_antisymm (hw.2 u hu.1 hk) (hu.2 w hw.1 hk.symm))

omit [DecidableEq K] in
theorem latest_perm {ws us : List (Write P K V)} (h : ws.Perm us) {w : Write P K V} :
    Latest ws w ↔ Latest us w := by
  simp only [Latest, h.mem_iff]

theorem get?_replay {ws : List (Write P K V)} (hp : Positioned ws) {k : K} {v : V} :
    (replay ws).get? k = some v ↔ ∃ w, Latest ws w ∧ w.key = k ∧ w.value = v := by
  have hperm := List.perm_insertionSort (fun a b : Write P K V => a.position ≤ b.position) ws
  have hsorted : (ws.insertionSort fun a b => a.position ≤ b.position).Pairwise
      (fun a b => a.position ≤ b.position) :=
    List.pairwise_insertionSort (fun a b : Write P K V => a.position ≤ b.position) ws
  rw [replay, foldl_set_pairs, OrderedMap.get?_foldl_set, OrderedMap.get?_empty, Option.or_none,
    ← List.map_reverse, List.find?_map, Option.map_map]
  constructor
  · intro h
    obtain ⟨w, hfind, hv⟩ := Option.map_eq_some_iff.mp h
    obtain ⟨hk, hl⟩ := find?_reverse_latest hsorted hfind
    exact ⟨w, (latest_perm hperm).mp hl, hk, hv⟩
  · rintro ⟨w, hl, hk, hv⟩
    have hl' := (latest_perm hperm).mpr hl
    cases hfind : (ws.insertionSort fun a b => a.position ≤ b.position).reverse.find?
        (fun u => decide (u.key = k)) with
    | none =>
      have := List.find?_eq_none.mp hfind w (by simpa using hl'.1)
      simp [hk] at this
    | some u =>
      obtain ⟨huk, hlu⟩ := find?_reverse_latest hsorted hfind
      have huw : u = w :=
        latest_unique hp ((latest_perm hperm).mp hlu) hl (huk.trans hk.symm)
      have hfind' : (ws.insertionSort fun a b => a.position ≤ b.position).reverse.find?
          ((fun w => decide (w.1 = k)) ∘ fun w : Write P K V => (w.key, w.value)) = some u := hfind
      rw [hfind', huw]
      simp [hv]

theorem replay_perm {ws us : List (Write P K V)} (h : ws.Perm us)
    (hpositions : ∀ u ∈ ws, ∀ w ∈ ws, u.position = w.position → u = w) :
    replay ws = replay us := by
  have hsorted : ws.insertionSort (fun a b => a.position ≤ b.position) =
      us.insertionSort (fun a b => a.position ≤ b.position) := by
    refine List.Perm.eq_of_pairwise (fun a b ha hb hab hba => ?_)
      (List.pairwise_insertionSort (fun a b : Write P K V => a.position ≤ b.position) ws)
      (List.pairwise_insertionSort (fun a b : Write P K V => a.position ≤ b.position) us)
      ((List.perm_insertionSort _ ws).trans (h.trans (List.perm_insertionSort _ us).symm))
    rw [List.mem_insertionSort] at ha hb
    exact hpositions a ha b (h.mem_iff.mpr hb) (le_antisymm hab hba)
  rw [replay, replay, hsorted]

end Write
