import Mathlib.Algebra.GroupWithZero.Nat
import Mathlib.Algebra.Order.BigOperators.Group.List
import Mathlib.Algebra.Order.Group.Nat
import Mathlib.Data.List.Nodup

/-!
# Insertion-ordered dictionaries

A `Dict K V` is a list of entries with distinct keys.  Setting a key that is present replaces the
value in place; setting a new key appends an entry, so that the entries stay in insertion order.

Besides the lookup equations there is one counting rule: a quantity summed over the values changes
by the old and the new value when a key is set, and by the old value when it is erased.
-/

namespace Lvllm

open List

/-- A sum over a list after one element is replaced. -/
lemma sum_map_set {α : Type} (f : α → ℕ) {l : List α} {i : ℕ} {a : α} (a' : α)
    (h : l[i]? = some a) : ((l.set i a').map f).sum + f a = (l.map f).sum + f a' := by
  induction l generalizing i with
  | nil => simp at h
  | cons x l ih =>
    cases i with
    | zero =>
      obtain rfl : x = a := by simpa using h
      simp only [set_cons_zero, map_cons, sum_cons]
      omega
    | succ i =>
      have := ih (by simpa using h)
      simp only [set_cons_succ, map_cons, sum_cons]
      omega

/-- A finite map whose entries keep the order in which their keys were first set. -/
structure Dict (K V : Type) where
  entries : List (K × V)
  nodup : (entries.map Prod.fst).Nodup

namespace Dict

variable {K V : Type}

/-- The empty dictionary. -/
def empty : Dict K V := ⟨[], List.nodup_nil⟩

/-- The keys, in order. -/
def keys (d : Dict K V) : List K := d.entries.map Prod.fst

/-- The values, in the order of their keys. -/
def values (d : Dict K V) : List V := d.entries.map Prod.snd

/-- The number of entries. -/
def size (d : Dict K V) : ℕ := d.entries.length

variable [DecidableEq K]

/-- Look up a key in a list of entries. -/
def lookupIn (k : K) : List (K × V) → Option V
  | [] => none
  | (k', v) :: es => if k' = k then some v else lookupIn k es

/-- Set a key in a list of entries. -/
def setIn (k : K) (v : V) : List (K × V) → List (K × V)
  | [] => [(k, v)]
  | (k', v') :: es => if k' = k then (k, v) :: es else (k', v') :: setIn k v es

lemma map_fst_setIn (k : K) (v : V) (es : List (K × V)) : (setIn k v es).map Prod.fst =
      if k ∈ es.map Prod.fst then es.map Prod.fst else es.map Prod.fst ++ [k] := by
  induction es with
  | nil => simp [setIn]
  | cons e es ih =>
    obtain ⟨k', v'⟩ := e
    by_cases hk : k' = k
    · simp [setIn, hk]
    · simp only [setIn, hk, if_false, map_cons, ih, mem_cons, Ne.symm hk, false_or]
      split <;> simp

/-- The value of a key, if it is present. -/
def get? (d : Dict K V) (k : K) : Option V := lookupIn k d.entries

/-- Whether a key is present. -/
def contains (d : Dict K V) (k : K) : Bool := (d.get? k).isSome

/-- Set a key. -/
def set (d : Dict K V) (k : K) (v : V) : Dict K V where
  entries := setIn k v d.entries
  nodup := by
    rw [map_fst_setIn]
    split
    · exact d.nodup
    · rename_i hk
      exact List.nodup_append.2 ⟨d.nodup, List.nodup_singleton k, fun a ha b hb hab =>
        hk (List.mem_singleton.1 hb ▸ hab ▸ ha)⟩

/-- Remove a key. -/
def erase (d : Dict K V) (k : K) : Dict K V where
  entries := d.entries.filter (fun e => e.1 ≠ k)
  nodup := d.nodup.sublist (List.filter_sublist.map Prod.fst)

/-! ## Lookup -/

@[simp] lemma get?_empty (k : K) : (empty : Dict K V).get? k = none := rfl

variable {k : K} {d : Dict K V} {v : V} {k' : K}

lemma lookupIn_eq_some {es : List (K × V)} (hes : (es.map Prod.fst).Nodup) :
    lookupIn k es = some v ↔ (k, v) ∈ es := by
  induction es with
  | nil => simp [lookupIn]
  | cons e es ih =>
    obtain ⟨k', v'⟩ := e
    obtain ⟨hk', hes⟩ := nodup_cons.1 hes
    by_cases hk : k' = k
    · subst hk
      simp only [lookupIn, if_true, Option.some.injEq, mem_cons, Prod.mk.injEq, true_and]
      constructor
      · intro hv
        exact .inl hv.symm
      · rintro (hv | hv)
        · exact hv.symm
        · exact absurd (mem_map_of_mem hv) hk'
    · simp only [lookupIn, hk, if_false, ih hes, mem_cons, Prod.mk.injEq, Ne.symm hk,
        false_and, false_or]

/-- A key has a value iff the entry is there. -/
lemma get?_eq_some : d.get? k = some v ↔ (k, v) ∈ d.entries := lookupIn_eq_some d.nodup

lemma get?_eq_none : d.get? k = none ↔ k ∉ d.keys := by
  rw [← not_iff_not, not_not, ← Ne, Option.ne_none_iff_exists']
  simp only [get?_eq_some, keys, mem_map, Prod.exists, exists_and_right, exists_eq_right]

lemma lookupIn_setIn (k k' : K) (v : V) (es : List (K × V)) :
    lookupIn k' (setIn k v es) = if k' = k then some v else lookupIn k' es := by
  induction es with
  | nil =>
    by_cases hk : k' = k
    · simp [setIn, lookupIn, hk]
    · simp [setIn, lookupIn, hk, Ne.symm hk]
  | cons e es ih =>
    obtain ⟨k1, v1⟩ := e
    by_cases hk1 : k1 = k
    · by_cases hk : k' = k
      · simp [setIn, lookupIn, hk1, hk]
      · simp [setIn, lookupIn, hk1, hk, Ne.symm hk]
    · by_cases hk' : k1 = k'
      · subst hk'
        simp [setIn, lookupIn, hk1]
      · simp [setIn, lookupIn, hk1, hk', ih]

@[simp] lemma get?_set_self (d : Dict K V) (k : K) (v : V) : (d.set k v).get? k = some v := by
  simp [get?, set, lookupIn_setIn]

@[simp] lemma get?_set_ne (d : Dict K V) (h : k' ≠ k) (v : V) :
    (d.set k v).get? k' = d.get? k' := by
  simp [get?, set, lookupIn_setIn, h]

@[simp] lemma get?_erase_self (d : Dict K V) (k : K) : (d.erase k).get? k = none := by
  simp [get?_eq_none, keys, erase]

@[simp] lemma get?_erase_ne (d : Dict K V) (h : k' ≠ k) : (d.erase k).get? k' = d.get? k' := by
  refine Option.ext fun v => ?_
  simp only [get?_eq_some, erase, mem_filter, decide_eq_true_eq]
  exact ⟨fun hv => hv.1, fun hv => ⟨hv, h⟩⟩

lemma get?_of_erase (h : (d.erase k).get? k' = some v) : d.get? k' = some v := by
  by_cases heq : k' = k
  · rw [heq, get?_erase_self] at h
    cases h
  · rwa [get?_erase_ne _ heq] at h

lemma get?_erase_eq_none (h : d.get? k' = none) : (d.erase k).get? k' = none := by
  by_cases heq : k' = k
  · rw [heq, get?_erase_self]
  · rw [get?_erase_ne _ heq, h]

/-- Setting a key that is there adds none. -/
lemma get?_set_eq_none (hk : d.get? k ≠ none) (h : d.get? k' = none) :
    (d.set k v).get? k' = none := by
  have hne : k' ≠ k := by
    rintro rfl
    exact hk h
  rw [get?_set_ne _ hne, h]

lemma contains_set_self (d : Dict K V) (k : K) (v : V) : (d.set k v).contains k = true := by
  rw [contains, get?_set_self]
  rfl

/-- Erasing the first key leaves the other entries. -/
lemma entries_erase_head {rest : List (K × V)} (h : d.entries = (k, v) :: rest) :
    (d.erase k).entries = rest := by
  have hnodup := d.nodup
  rw [h, map_cons, nodup_cons] at hnodup
  change d.entries.filter (fun e => e.1 ≠ k) = rest
  rw [h, filter_cons_of_neg (by simp)]
  refine filter_eq_self.2 fun e he => ?_
  have hne : e.1 ≠ k := fun heq => hnodup.1 (mem_map.2 ⟨e, he, heq⟩)
  simpa using hne

/-! ## Entries up to order -/

lemma entries_set_of_get?_eq_none (h : d.get? k = none) (v : V) :
    (d.set k v).entries = d.entries ++ [(k, v)] := by
  have hin : ∀ es : List (K × V), lookupIn k es = none → setIn k v es = es ++ [(k, v)] := by
    intro es
    induction es with
    | nil => exact fun _ => rfl
    | cons e es ih =>
      obtain ⟨k', v'⟩ := e
      intro hnone
      by_cases hk : k' = k
      · simp [lookupIn, hk] at hnone
      · rw [lookupIn, if_neg hk] at hnone
        rw [setIn, if_neg hk, ih hnone, cons_append]
  exact hin d.entries h

/-- An entry that is present stands beside those that are left when its key is erased. -/
lemma entries_perm_cons_erase (h : d.get? k = some v) :
    d.entries.Perm ((k, v) :: (d.erase k).entries) := by
  have hnodup : d.entries.Nodup := List.Nodup.of_map _ d.nodup
  have hnot : (k, v) ∉ (d.erase k).entries := by
    intro hmem
    simpa using (mem_filter.1 hmem).2
  refine (perm_ext_iff_of_nodup hnodup (nodup_cons.2 ⟨hnot, ?_⟩)).2 ?_
  · exact List.Nodup.of_map _ (d.erase k).nodup
  · rintro ⟨k', v'⟩
    rw [mem_cons, ← get?_eq_some, ← get?_eq_some]
    by_cases hk : k' = k
    · subst hk
      rw [h, get?_erase_self]
      simp [eq_comm]
    · simp [hk]

lemma erase_set_self (d : Dict K V) (k : K) (v : V) : ((d.set k v).erase k).entries =
    (d.erase k).entries := by
  show (setIn k v d.entries).filter (fun e => e.1 ≠ k) = d.entries.filter fun e => e.1 ≠ k
  induction d.entries with
  | nil => simp [setIn]
  | cons e es ih =>
    obtain ⟨k', v'⟩ := e
    by_cases hk : k' = k
    · simp [setIn, hk]
    · rw [setIn, if_neg hk, filter_cons_of_pos (by simpa using hk),
        filter_cons_of_pos (by simpa using hk), ih]

/-- What a key is set to stands beside the entries of the other keys. -/
lemma entries_set_perm (d : Dict K V) (k : K) (v : V) :
    (d.set k v).entries.Perm ((k, v) :: (d.erase k).entries) := by
  have h := entries_perm_cons_erase (d.get?_set_self k v)
  rwa [erase_set_self] at h

/-- Move a key that is present to the end of the order. -/
def moveToEnd (d : Dict K V) (k : K) : Dict K V :=
  match d.get? k with
  | none => d
  | some v => (d.erase k).set k v

lemma entries_moveToEnd_perm (d : Dict K V) (k : K) : (d.moveToEnd k).entries.Perm d.entries := by
  unfold moveToEnd
  split
  · exact .refl _
  · rename_i v h
    rw [entries_set_of_get?_eq_none (d.get?_erase_self k)]
    exact (perm_append_singleton _ _).trans (entries_perm_cons_erase h).symm

/-- The order of the entries does not matter for lookup. -/
lemma get?_eq_of_perm {d' : Dict K V} (h : d.entries.Perm d'.entries) (k : K) :
    d.get? k = d'.get? k := by
  refine Option.ext fun v => ?_
  rw [get?_eq_some, get?_eq_some, h.mem_iff]

@[simp] lemma get?_moveToEnd (d : Dict K V) (k k' : K) : (d.moveToEnd k).get? k' = d.get? k' :=
  get?_eq_of_perm (d.entries_moveToEnd_perm k) k'

/-- Leave out the first `n` entries. -/
def dropFirst (d : Dict K V) (n : ℕ) : Dict K V where
  entries := d.entries.drop n
  nodup := d.nodup.sublist ((List.drop_sublist n d.entries).map Prod.fst)

/-- Change every value. -/
def mapValues {W : Type} (d : Dict K V) (f : V → W) : Dict K W where
  entries := d.entries.map fun e => (e.1, f e.2)
  nodup := by
    rw [List.map_map]
    exact d.nodup

lemma get?_mapValues {W : Type} (d : Dict K V) (f : V → W) (k : K) :
    (d.mapValues f).get? k = (d.get? k).map f := by
  show lookupIn k (d.entries.map fun e => (e.1, f e.2)) = (lookupIn k d.entries).map f
  induction d.entries with
  | nil => rfl
  | cons e es ih =>
    obtain ⟨k', v⟩ := e
    by_cases hk : k' = k
    · simp [lookupIn, hk]
    · simp [lookupIn, hk, ih]

/-! ## Counting -/

/-- A quantity summed over the values. -/
def sum (d : Dict K V) (f : V → ℕ) : ℕ := (d.entries.map fun e => f e.2).sum

omit [DecidableEq K] in
lemma size_eq_sum (d : Dict K V) : d.size = d.sum fun _ => 1 := by
  simp [size, sum]

/-- Erasing a key takes its contribution away. -/
lemma sum_erase (d : Dict K V) (k : K) (f : V → ℕ) :
    (d.erase k).sum f + (d.get? k).elim 0 f = d.sum f := by
  cases h : d.get? k with
  | none =>
    have hkeep : (d.erase k).entries = d.entries := filter_eq_self.2 fun e he =>
      decide_eq_true fun heq => get?_eq_none.1 h (mem_map.2 ⟨e, he, heq⟩)
    rw [sum, hkeep]
    rfl
  | some v =>
    have hsum := ((entries_perm_cons_erase h).map fun e => f e.2).sum_eq
    rw [map_cons, sum_cons, Nat.add_comm] at hsum
    exact hsum.symm

/-- Setting a key replaces its old contribution by the new one. -/
lemma sum_set (d : Dict K V) (k : K) (v : V) (f : V → ℕ) :
    (d.set k v).sum f + (d.get? k).elim 0 f = d.sum f + f v := by
  have hset : (d.set k v).sum f = f v + (d.erase k).sum f := by
    rw [sum, ((d.entries_set_perm k v).map fun e => f e.2).sum_eq, map_cons, sum_cons, sum]
  have herase := d.sum_erase k f
  omega

omit [DecidableEq K] in
/-- When every value contributes at most one and the total is the number of entries, every value
contributes one. -/
lemma eq_one_of_sum_eq_size {f : V → ℕ} (hle : ∀ e ∈ d.entries, f e.2 ≤ 1)
    (hsum : d.sum f = d.size) : ∀ e ∈ d.entries, f e.2 = 1 := by
  unfold sum size at hsum
  generalize d.entries = es at hle hsum
  induction es with
  | nil => simp
  | cons e es ih =>
    have hhead := hle e mem_cons_self
    have htail := fun e' he' => hle e' (mem_cons_of_mem e he')
    have hbound : (es.map fun e => f e.2).sum ≤ es.length := by
      have := sum_le_card_nsmul (es.map fun e => f e.2) 1 fun n hn => by
        obtain ⟨e', he', rfl⟩ := mem_map.1 hn
        exact htail e' he'
      simpa using this
    simp only [map_cons, sum_cons, length_cons] at hsum
    intro e' he'
    rcases mem_cons.1 he' with rfl | he'
    · omega
    · exact ih htail (by omega) e' he'

/-! ## Sums over keys -/

/-- A quantity summed over the keys. -/
def keySum (d : Dict K V) (f : K → ℕ) : ℕ := (d.keys.map f).sum

lemma keys_set (d : Dict K V) (k : K) (v : V) :
    (d.set k v).keys = if k ∈ d.keys then d.keys else d.keys ++ [k] :=
  map_fst_setIn k v d.entries

lemma mem_keys_iff : k ∈ d.keys ↔ d.contains k = true := by
  rw [contains, ← Option.ne_none_iff_isSome, Ne, get?_eq_none, not_not]

/-- Setting a key that is present keeps the sum. -/
lemma keySum_set_of_mem (hk : k ∈ d.keys) (v : V) (f : K → ℕ) :
    (d.set k v).keySum f = d.keySum f := by
  rw [keySum, keys_set, if_pos hk, keySum]

/-- Setting a new key adds its contribution. -/
lemma keySum_set_of_not_mem (hk : k ∉ d.keys) (v : V) (f : K → ℕ) :
    (d.set k v).keySum f = d.keySum f + f k := by
  rw [keySum, keys_set, if_neg hk, keySum]
  simp

lemma keys_erase (d : Dict K V) (k : K) : (d.erase k).keys = d.keys.filter (· ≠ k) := by
  rw [keys, keys, erase, filter_map]
  rfl

/-- Erasing a key that is present takes its contribution away. -/
lemma keySum_erase (hk : k ∈ d.keys) (f : K → ℕ) : (d.erase k).keySum f + f k = d.keySum f := by
  obtain ⟨e, he, rfl⟩ := mem_map.1 hk
  have hsum := (((entries_perm_cons_erase (get?_eq_some.2 he)).map Prod.fst).map f).sum_eq
  rw [map_cons, map_cons, sum_cons, Nat.add_comm] at hsum
  exact hsum.symm

omit [DecidableEq K] in
/-- A dictionary with fewer keys has a smaller sum. -/
lemma keySum_le_keySum {W : Type} {d' : Dict K W} (h : d.keys ⊆ d'.keys) (f : K → ℕ) :
    d.keySum f ≤ d'.keySum f := by
  have hnodup : d.keys.Nodup := d.nodup
  obtain ⟨l, hperm, hsub⟩ := subperm_of_subset hnodup h
  calc d.keySum f = (l.map f).sum := (hperm.map f).sum_eq.symm
    _ ≤ d'.keySum f := (hsub.map f).sum_le_sum fun _ _ => Nat.zero_le _

end Dict

end Lvllm
