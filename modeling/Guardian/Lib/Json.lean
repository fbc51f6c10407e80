import Mathlib.Data.Rat.Defs
import Mathlib.Tactic.Common

/-!
# JSON values and strict readers

A parsed JSON document and the readers a schema is made of. Every reader is a
partial function: `none` is a rejected document.
-/

inductive Json where
  | null
  | bool (b : Bool)
  | num (q : ℚ)
  | str (s : String)
  | arr (items : List Json)
  | obj (fields : List (String × Json))

namespace Json

def get? (key : String) : Json → Option Json
  | obj fields => fields.lookup key
  | _ => none

def string? : Json → Option String
  | str s => some s
  | _ => none

def num? : Json → Option ℚ
  | num q => some q
  | _ => none

def array? : Json → Option (List Json)
  | arr items => some items
  | _ => none

def isObject : Json → Bool
  | obj _ => true
  | _ => false

def keys : Json → List String
  | obj fields => fields.map Prod.fst
  | _ => []

def isStrictObject (names : List String) (j : Json) : Bool :=
  j.isObject && j.keys.all (fun k => decide (k ∈ names))

def integer? (j : Json) : Option ℤ :=
  j.num?.bind fun q => if q.den = 1 then some q.num else none

def nat? (ok : ℕ → Bool) (j : Json) : Option ℕ :=
  j.integer?.bind fun n => if 0 ≤ n ∧ ok n.toNat = true then some n.toNat else none

def stringWhere? (ok : String → Bool) (j : Json) : Option String :=
  j.string?.bind fun s => if ok s = true then some s else none

theorem stringWhere?_eq_some {ok : String → Bool} {j : Json} {s : String} :
    j.stringWhere? ok = some s ↔ j = .str s ∧ ok s = true := by
  cases j <;> simp [stringWhere?, string?]
  constructor
  · rintro ⟨h, rfl⟩
    exact ⟨rfl, h⟩
  · rintro ⟨rfl, h⟩
    exact ⟨h, rfl⟩

theorem nat?_holds {ok : ℕ → Bool} {j : Json} {n : ℕ} (h : j.nat? ok = some n) : ok n = true := by
  simp only [nat?, Option.bind_eq_some_iff] at h
  obtain ⟨m, -, hm⟩ := h
  split at hm
  · rename_i hok
    obtain rfl := Option.some.inj hm
    exact hok.2
  · simp at hm

end Json
