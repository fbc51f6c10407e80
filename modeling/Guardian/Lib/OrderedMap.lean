import Mathlib.Data.List.Nodup
import Mathlib.Data.List.Pairwise
import Mathlib.Tactic.Common

/-!
# Insertion-ordered maps

Entries keep the position of their first insertion, a later `set` of the same
key updates in place, and no key occurs twice: a map with a duplicate key cannot
be built. `foldl_set` is the replay of a list of writes, whose value at a key is
the last write to it.
-/

structure OrderedMap (K V : Type) where
  entries : List (K × V)
  nodup : (entries.map Prod.fst).Nodup

namespace OrderedMap
variable {K V : Type} [DecidableEq K]

def setEntry (k : K) (v : V) : List (K × V) → List (K × V)
  | [] => [(k, v)]
  | e :: es => if e.1 = k then (k, v) :: es else e :: setEntry k v es

theorem mem_keys_setEntry {k j : K} {v : V} {es : List (K × V)} :
    j ∈ (setEntry k v es).map Prod.fst ↔ j = k ∨ j ∈ es.map Prod.fst := by
  induction es with
  | nil => simp [setEntry]
  | cons e es ih =>
    by_cases h : e.1 = k
    · simp [setEntry, h]
    · simp only [setEntry, h, if_false, List.map_cons, List.mem_cons, ih]
      tauto

theorem nodup_setEntry {k : K} {v : V} {es : List (K × V)} (h : (es.map Prod.fst).Nodup) :
    ((setEntry k v es).map Prod.fst).Nodup := by
  induction es with
  | nil => simp [setEntry]
  | cons e es ih =>
    obtain ⟨he, hes⟩ := List.nodup_cons.mp h
    by_cases hk : e.1 = k
    · simpa only [setEntry, hk, if_true, List.map_cons] using hk ▸ h
    · simp only [setEntry, hk, if_false, List.map_cons, List.nodup_cons]
      exact ⟨fun hm => (mem_keys_setEntry.mp hm).elim hk he, ih hes⟩

def empty : OrderedMap K V := ⟨[], List.nodup_nil⟩

instance : Inhabited (OrderedMap K V) := ⟨empty⟩

def get? (m : OrderedMap K V) (k : K) : Option V :=
  (m.entries.find? (fun e => decide (e.1 = k))).map Prod.snd

def set (m : OrderedMap K V) (k : K) (v : V) : OrderedMap K V :=
  ⟨setEntry k v m.entries, nodup_setEntry m.nodup⟩

def filter (m : OrderedMap K V) (keep : K × V → Bool) : OrderedMap K V :=
  ⟨m.entries.filter keep, m.nodup.sublist (List.filter_sublist.map _)⟩

def drop (m : OrderedMap K V) (n : ℕ) : OrderedMap K V :=
  ⟨m.entries.drop n, m.nodup.sublist ((List.drop_sublist n m.entries).map _)⟩

def delete (m : OrderedMap K V) (k : K) : OrderedMap K V := m.filter (fun e => decide (e.1 ≠ k))

def size (m : OrderedMap K V) : ℕ := m.entries.length

theorem get?_eq_some {m : OrderedMap K V} {k : K} {v : V} :
    m.get? k = some v ↔ (k, v) ∈ m.entries := by
  obtain ⟨es, hes⟩ := m
  induction es with
  | nil => simp [get?]
  | cons e es ih =>
    obtain ⟨he, hes'⟩ := List.nodup_cons.mp hes
    have ih' := ih hes'
    by_cases hk : e.1 = k
    · subst hk
      simp only [get?, List.find?_cons_of_pos, decide_true, Option.map_some, Option.some.injEq,
        List.mem_cons]
      constructor
      · intro h
        exact .inl (by rw [← h])
      · rintro (h | h)
        · rw [← h]
        · exact absurd (List.mem_map_of_mem h) he
    · have hne : (k, v) ≠ e := fun h => hk (by rw [← h])
      simp only [get?, hk, decide_false, Bool.false_eq_true, not_false_eq_true,
        List.find?_cons_of_neg, List.mem_cons, hne, false_or]
      exact ih'

theorem get?_eq_none {m : OrderedMap K V} {k : K} :
    m.get? k = none ↔ ∀ v, (k, v) ∉ m.entries := by
  cases h : m.get? k with
  | none => simp only [true_iff]; exact fun v hv => by simp [get?_eq_some.mpr hv] at h
  | some v => simpa using ⟨v, get?_eq_some.mp h⟩

theorem ext_get? {k : K} {o : Option V} {m : OrderedMap K V}
    (h : ∀ v, (k, v) ∈ m.entries ↔ o = some v) : m.get? k = o := by
  cases o with
  | none => exact get?_eq_none.mpr fun v hv => by simpa using (h v).mp hv
  | some v => exact get?_eq_some.mpr ((h v).mpr rfl)

@[simp] theorem get?_empty (k : K) : (empty : OrderedMap K V).get? k = none := rfl

theorem mem_setEntry {k j : K} {v w : V} {es : List (K × V)} (h : (es.map Prod.fst).Nodup) :
    (j, w) ∈ setEntry k v es ↔ if j = k then w = v else (j, w) ∈ es := by
  induction es with
  | nil => by_cases hj : j = k <;> simp [setEntry, hj]
  | cons e es ih =>
    obtain ⟨he, hes⟩ := List.nodup_cons.mp h
    by_cases hk : e.1 = k
    · subst hk
      by_cases hj : j = e.1
      · subst hj
        have hnot : (e.1, w) ∉ es := fun hm => he (List.mem_map.mpr ⟨_, hm, rfl⟩)
        simp [setEntry, hnot]
      · have hne : (j, w) ≠ e := fun hm => hj (by rw [← hm])
        simp [setEntry, hj, hne]
    · simp only [setEntry, hk, if_false, List.mem_cons, ih hes]
      by_cases hj : j = k
      · subst hj
        have hne : (j, w) ≠ e := fun hm => hk (by rw [← hm])
        simp [hne]
      · simp [hj]

theorem mem_entries_set {m : OrderedMap K V} {k j : K} {v w : V} :
    (j, w) ∈ (m.set k v).entries ↔ if j = k then w = v else (j, w) ∈ m.entries :=
  mem_setEntry m.nodup

theorem get?_set (m : OrderedMap K V) (k j : K) (v : V) :
    (m.set k v).get? j = if j = k then some v else m.get? j := by
  refine ext_get? fun w => ?_
  rw [mem_entries_set]
  by_cases hj : j = k
  · simp [hj, eq_comm]
  · simp only [hj, if_false]
    exact get?_eq_some.symm

@[simp] theorem get?_set_self (m : OrderedMap K V) (k : K) (v : V) :
    (m.set k v).get? k = some v := by simp [get?_set]

theorem get?_filter (m : OrderedMap K V) (keep : K × V → Bool) (k : K) :
    (m.filter keep).get? k = (m.get? k).filter (fun v => keep (k, v)) := by
  refine ext_get? fun v => ?_
  simp [filter, Option.filter_eq_some_iff, get?_eq_some]

theorem get?_delete (m : OrderedMap K V) (k j : K) :
    (m.delete k).get? j = if j = k then none else m.get? j := by
  rw [delete, get?_filter]
  by_cases h : j = k <;> cases hm : m.get? j <;> simp [h]

theorem get?_of_drop {m : OrderedMap K V} {n : ℕ} {k : K} {v : V}
    (h : (m.drop n).get? k = some v) : m.get? k = some v :=
  get?_eq_some.mpr (List.mem_of_mem_drop (get?_eq_some.mp h))

theorem get?_of_filter {m : OrderedMap K V} {keep : K × V → Bool} {k : K} {v : V}
    (h : (m.filter keep).get? k = some v) : m.get? k = some v :=
  get?_eq_some.mpr (List.mem_filter.mp (get?_eq_some.mp h)).1

theorem get?_foldl_set (ws : List (K × V)) (m : OrderedMap K V) (k : K) :
    (ws.foldl (fun m w => m.set w.1 w.2) m).get? k =
      ((ws.reverse.find? (fun w => decide (w.1 = k))).map Prod.snd).or (m.get? k) := by
  induction ws generalizing m with
  | nil => simp
  | cons w ws ih =>
    rw [List.foldl_cons, ih, get?_set, List.reverse_cons, List.find?_append]
    cases hfind : ws.reverse.find? (fun w => decide (w.1 = k)) with
    | some e => simp
    | none =>
      by_cases h : k = w.1
      · simp [h]
      · have hw : w.1 ≠ k := fun hw => h hw.symm
        simp [h, hw]

section Distinct
variable {α β : Type} [BEq α] [LawfulBEq α] [BEq β] [LawfulBEq β]

theorem eraseDups_filterMap (f : α → Option β) (as : List α) :
    (as.eraseDups.filterMap f).eraseDups = (as.filterMap f).eraseDups := by
  induction hn : as.length using Nat.strongRecOn generalizing f as with
  | _ n ih =>
    cases as with
    | nil => rfl
    | cons a as =>
      subst hn
      have hlength : (as.filter fun x => !x == a).length < (a :: as).length :=
        Nat.lt_succ_of_le (List.length_filter_le _ as)
      have hrest := fun g => ih _ hlength g _ rfl
      rw [List.eraseDups_cons]
      cases hfa : f a with
      | none =>
        rw [List.filterMap_cons_none hfa, List.filterMap_cons_none hfa, hrest f,
          List.filterMap_filter]
        refine congrArg List.eraseDups (List.filterMap_congr fun x _ => ?_)
        by_cases hx : x = a
        · simp [hx, hfa]
        · simp [hx]
      | some b =>
        rw [List.filterMap_cons_some hfa, List.filterMap_cons_some hfa, List.eraseDups_cons,
          List.eraseDups_cons, List.filter_filterMap, List.filter_filterMap, hrest,
          List.filterMap_filter]
        refine congrArg (fun l => b :: l.eraseDups) (List.filterMap_congr fun x _ => ?_)
        by_cases hx : x = a
        · simp [hx, hfa, Option.filter]
        · simp [hx]

theorem eraseDups_filterMap_congr {as as' : List α} (h : as.eraseDups = as'.eraseDups)
    (f : α → Option β) : (as.filterMap f).eraseDups = (as'.filterMap f).eraseDups := by
  rw [← eraseDups_filterMap, h, eraseDups_filterMap]

theorem mem_congr_eraseDups {as as' : List α} (h : as.eraseDups = as'.eraseDups) {a : α} :
    a ∈ as ↔ a ∈ as' := by
  rw [← List.mem_eraseDups, h, List.mem_eraseDups]

theorem removeAll_eq_filterMap (as bs : List α) :
    bs.removeAll as = bs.filterMap (Option.guard fun x => decide (x ∉ as)) := by
  rw [List.filterMap_eq_filter, List.removeAll]
  exact List.filter_congr fun x _ => by simp

theorem eraseDups_append_congr {as as' bs bs' : List α} (ha : as.eraseDups = as'.eraseDups)
    (hb : bs.eraseDups = bs'.eraseDups) : (as ++ bs).eraseDups = (as' ++ bs').eraseDups := by
  have hguard : (fun x => decide (x ∉ as)) = fun x => decide (x ∉ as') := by
    funext x
    simp only [mem_congr_eraseDups ha]
  rw [List.eraseDups_append, List.eraseDups_append, ha, removeAll_eq_filterMap,
    removeAll_eq_filterMap, hguard, eraseDups_filterMap_congr hb]

end Distinct

theorem eraseDups_of_nodup {α : Type} [DecidableEq α] {as : List α} (h : as.Nodup) :
    as.eraseDups = as := by
  induction as with
  | nil => rfl
  | cons a as ih =>
    obtain ⟨ha, has⟩ := List.nodup_cons.mp h
    have hkeep : (as.filter fun x => !x == a) = as :=
      List.filter_eq_self.mpr fun x hx => by
        have hne : x ≠ a := fun he => ha (he ▸ hx)
        simp [hne]
    rw [List.eraseDups_cons, hkeep, ih has]

theorem keys_setEntry (k : K) (v : V) (es : List (K × V)) :
    (setEntry k v es).map Prod.fst =
      if k ∈ es.map Prod.fst then es.map Prod.fst else es.map Prod.fst ++ [k] := by
  induction es with
  | nil => rfl
  | cons e es ih =>
    by_cases hk : e.1 = k
    · simp [setEntry, hk]
    · have hk' : k ≠ e.1 := fun h => hk h.symm
      simp only [setEntry, hk, if_false, List.map_cons, ih, List.mem_cons, hk', false_or]
      split <;> rfl

theorem keys_foldl_set (ws : List (K × V)) :
    (ws.foldl (fun m w => m.set w.1 w.2) empty).entries.map Prod.fst =
      (ws.map Prod.fst).eraseDups := by
  suffices hfrom : ∀ m : OrderedMap K V,
      (ws.foldl (fun m w => m.set w.1 w.2) m).entries.map Prod.fst =
        (m.entries.map Prod.fst ++ ws.map Prod.fst).eraseDups from hfrom empty
  induction ws with
  | nil =>
    intro m
    rw [List.map_nil, List.append_nil, eraseDups_of_nodup m.nodup]
    rfl
  | cons w ws ih =>
    intro m
    have hset : ((m.set w.1 w.2).entries.map Prod.fst).eraseDups =
        (m.entries.map Prod.fst ++ [w.1]).eraseDups := by
      rw [set, keys_setEntry, List.eraseDups_append]
      split
      case isTrue h => simp [List.removeAll, h]
      case isFalse h => rw [List.eraseDups_append]
    rw [List.foldl_cons, ih, eraseDups_append_congr hset rfl, List.append_assoc]
    rfl

end OrderedMap
