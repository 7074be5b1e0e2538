import Mathlib.Data.List.Dedup
import Mathlib.Data.List.TakeWhile
import Lvllm.Foundation.Dict

/-!
# Least recently used

A cache of bounded total size.  An entry is a value with its size; the entries stand in the order of
their last use, and an insertion drops entries from the front until the new one fits.

Insertion is that of `LRUCache` in the Python library cachetools: `Cache.__setitem__` is documented to
raise `ValueError` ("value too large") for a value larger than `maxsize`, and to call `popitem`, which
removes the least recently used entry, until a new key, or a value larger than the old one, fits.

Three facts are proved about it.  What a cache drops depends on its keys and sizes alone, so two caches
that agree on these stay in agreement under the same calls (`Mirrors`).  A key is cached exactly if
all keys used since its last use fit together with it (`Follows`).  So if some keys are used together,
in front of any insertion among them, and fit together, then none of them is dropped (`Recent`).
-/

namespace Lvllm

open List Dict

namespace Dict

variable {K V W : Type} {d : Dict K V}

@[ext] lemma ext {d' : Dict K V} (h : d.entries = d'.entries) : d = d' := by
  obtain ⟨entries, hnodup⟩ := d
  cases h
  rfl

lemma mapValues_dropFirst (d : Dict K V) (n : ℕ) (f : V → W) :
    (d.dropFirst n).mapValues f = (d.mapValues f).dropFirst n := by
  ext1
  exact map_drop

variable [DecidableEq K]

lemma mapValues_erase (d : Dict K V) (k : K) (f : V → W) :
    (d.erase k).mapValues f = (d.mapValues f).erase k := by
  ext1
  show (d.entries.filter _).map _ = (d.entries.map _).filter _
  rw [filter_map]
  rfl

lemma mapValues_set (d : Dict K V) (k : K) (v : V) (f : V → W) :
    (d.set k v).mapValues f = (d.mapValues f).set k (f v) := by
  ext1
  show (setIn k v d.entries).map _ = setIn k (f v) (d.entries.map _)
  induction d.entries with
  | nil => rfl
  | cons e es ih =>
    obtain ⟨k', v'⟩ := e
    by_cases hk : k' = k
    · simp [setIn, hk]
    · simp [setIn, hk, ih]

lemma mapValues_moveToEnd (d : Dict K V) (k : K) (f : V → W) :
    (d.moveToEnd k).mapValues f = (d.mapValues f).moveToEnd k := by
  unfold moveToEnd
  rw [get?_mapValues]
  cases d.get? k with
  | none => rfl
  | some v =>
    show ((d.erase k).set k v).mapValues f = ((d.mapValues f).erase k).set k (f v)
    rw [mapValues_set, mapValues_erase]

/-- A key that is present is moved behind the entries of the other keys. -/
lemma entries_moveToEnd {k : K} {v : V} (h : d.get? k = some v) :
    (d.moveToEnd k).entries = d.entries.filter (fun e => e.1 ≠ k) ++ [(k, v)] := by
  unfold moveToEnd
  rw [h]
  exact entries_set_of_get?_eq_none (d.get?_erase_self k) v

lemma moveToEnd_of_none {k : K} (h : d.get? k = none) : d.moveToEnd k = d := by
  unfold moveToEnd
  rw [h]

end Dict

/-- A cache with a bound on the total size of its values, least recently used first. -/
structure Lru (K V : Type) where
  data : Dict K (V × ℕ)
  maxsize : ℕ

/-- How many entries are dropped from the front for a value of some size: the calls of `popitem`. -/
def evictCount (maxsize size : ℕ) : List ℕ → ℕ
  | [] => 0
  | n :: ns => if maxsize < (n :: ns).sum + size then evictCount maxsize size ns + 1 else 0

namespace Lru

variable {K V W : Type}

/-- An empty cache. -/
def new (maxsize : ℕ) : Lru K V := ⟨.empty, maxsize⟩

/-- The keys, least recently used first. -/
def keys (c : Lru K V) : List K := c.data.keys

/-- The entries dropped for a value of some size. -/
def makeRoom (c : Lru K V) (size : ℕ) : Dict K (V × ℕ) :=
  c.data.dropFirst (evictCount c.maxsize size (c.data.values.map Prod.snd))

variable [DecidableEq K]

/-- Whether a key is cached. -/
def contains (c : Lru K V) (k : K) : Bool := c.data.contains k

/-- Make a key the most recently used one if it is cached. -/
def touch (c : Lru K V) (k : K) : Lru K V := { c with data := c.data.moveToEnd k }

/-- Look a key up; a hit counts as a use. -/
def get (c : Lru K V) (k : K) : Option V × Lru K V := ((c.data.get? k).map Prod.fst, c.touch k)

/-- Insert a value of some size with `__setitem__`; false when that raises because the value is larger
than the whole cache. -/
def putIfFits (c : Lru K V) (k : K) (v : V) (size : ℕ) : Bool × Lru K V :=
  if c.maxsize < size then (false, c)
  else
    let data := if (c.data.get? k).all (fun old => old.2 < size) then c.makeRoom size else c.data
    (true, { c with data := (data.set k (v, size)).moveToEnd k })

/-! ## Two caches with the same keys and sizes -/

/-- Two caches hold the same keys in the same order with the same sizes, under the same bound. -/
def Mirrors (c : Lru K V) (c' : Lru K W) : Prop :=
  c.maxsize = c'.maxsize ∧ c.data.mapValues Prod.snd = c'.data.mapValues Prod.snd

namespace Mirrors

variable {c : Lru K V} {c' : Lru K W}

section

variable (h : c.Mirrors c')

include h

omit [DecidableEq K] in
lemma sizes_eq : c.data.values.map Prod.snd = c'.data.values.map Prod.snd := by
  have hvalues := congrArg values h.2
  unfold values mapValues at hvalues
  rw [map_map, map_map] at hvalues
  unfold values
  rw [map_map, map_map]
  exact hvalues

lemma get?_eq (k : K) : (c.data.get? k).map Prod.snd = (c'.data.get? k).map Prod.snd := by
  rw [← get?_mapValues, ← get?_mapValues, h.2]

lemma isSome_get? (k : K) : (c.data.get? k).isSome = (c'.data.get? k).isSome := by
  have heq := congrArg Option.isSome (h.get?_eq k)
  rw [Option.isSome_map, Option.isSome_map] at heq
  exact heq

lemma touch (k : K) : (c.touch k).Mirrors (c'.touch k) := by
  refine ⟨h.1, ?_⟩
  show (c.data.moveToEnd k).mapValues _ = (c'.data.moveToEnd k).mapValues _
  rw [mapValues_moveToEnd, mapValues_moveToEnd, h.2]

omit [DecidableEq K] in
lemma makeRoom (size : ℕ) :
    (c.makeRoom size).mapValues Prod.snd = (c'.makeRoom size).mapValues Prod.snd := by
  unfold Lru.makeRoom
  rw [mapValues_dropFirst, mapValues_dropFirst, h.2, h.1, h.sizes_eq]

lemma putIfFits (k : K) (v : V) (w : W) (size : ℕ) :
    (c.putIfFits k v size).2.Mirrors (c'.putIfFits k w size).2 := by
  unfold Lru.putIfFits
  rw [h.1]
  split
  · exact h
  · refine ⟨rfl, ?_⟩
    have hall : (c.data.get? k).all (fun old => old.2 < size) =
        (c'.data.get? k).all fun old => old.2 < size := by
      have hmap := congrArg (Option.all fun n => decide (n < size)) (h.get?_eq k)
      rw [Option.all_map, Option.all_map] at hmap
      exact hmap
    rw [mapValues_moveToEnd, mapValues_moveToEnd, mapValues_set, mapValues_set, hall]
    split
    · rw [h.makeRoom size]
    · rw [h.2]

end

end Mirrors

/-! ## Keys in the order of their uses -/

/-- Every entry has the size of its key. -/
def Sized (size : K → ℕ) (c : Lru K V) : Prop := ∀ e ∈ c.data.entries, e.2.2 = size e.1

/-- What is cached after an insertion was cached before, or is the new entry. -/
lemma mem_putIfFits {c : Lru K V} {k : K} {v : V} {size : ℕ} {e : K × V × ℕ}
    (he : e ∈ (c.putIfFits k v size).2.data.entries) :
    e ∈ c.data.entries ∨ e = (k, v, size) := by
  unfold putIfFits at he
  split at he
  · exact .inl he
  · set data :=
        if (c.data.get? k).all (fun old => old.2 < size) then c.makeRoom size else c.data with hdata
    have hsub : ∀ e ∈ data.entries, e ∈ c.data.entries := by
      intro e he
      rw [hdata] at he
      split at he
      · exact (drop_sublist _ _).subset he
      · exact he
    have hmem := (data.entries_set_perm k (v, size)).mem_iff.1
      ((entries_moveToEnd_perm _ k).mem_iff.1 he)
    rcases mem_cons.1 hmem with hnew | hold
    · exact .inr hnew
    · exact .inl (hsub e (mem_filter.1 hold).1)

lemma maxsize_putIfFits (c : Lru K V) (k : K) (v : V) (size : ℕ) :
    (c.putIfFits k v size).2.maxsize = c.maxsize := by
  unfold putIfFits
  split <;> rfl

/-- A new key is inserted behind the entries that stay. -/
lemma entries_putIfFits {c : Lru K V} {k : K} {size : ℕ} (hle : size ≤ c.maxsize)
    (hnone : c.data.get? k = none) (v : V) : (c.putIfFits k v size).2.data.entries =
      c.data.entries.drop (evictCount c.maxsize size (c.data.values.map Prod.snd)) ++
        [(k, v, size)] := by
  have hroom : (c.makeRoom size).get? k = none := by
    refine get?_eq_none.2 fun hmem => get?_eq_none.1 hnone ?_
    exact ((drop_sublist _ c.data.entries).map Prod.fst).subset hmem
  have hne : ∀ e ∈ (c.makeRoom size).entries, decide (e.1 ≠ k) = true := by
    intro e he
    refine decide_eq_true fun heq => get?_eq_none.1 hroom ?_
    exact heq ▸ mem_map_of_mem he
  unfold putIfFits
  rw [if_neg (Nat.not_lt.2 hle), hnone]
  show (((c.makeRoom size).set k (v, size)).moveToEnd k).entries = _
  rw [entries_moveToEnd (get?_set_self _ k _), entries_set_of_get?_eq_none hroom, filter_append,
    filter_cons_of_neg (by simp), filter_nil, append_nil, filter_eq_self.2 hne]
  rfl

/-- A key is used: it comes behind the keys that were used before. -/
def use (k : K) (order : List K) : List K := order.filter (· ≠ k) ++ [k]

/-- The cache holds the last of the keys in the order of their uses, as many as fit together. -/
structure Follows (size : K → ℕ) (order : List K) (c : Lru K V) : Prop where
  sized : c.Sized size
  fits : (c.keys.map size).sum ≤ c.maxsize
  nodup : order.Nodup
  dropped : ∃ dropped, order = dropped ++ c.keys ∧
    ∀ d ∈ dropped.getLast?, c.maxsize < size d + (c.keys.map size).sum

omit [DecidableEq K] in
lemma Sized.values_eq {size : K → ℕ} {c : Lru K V} (h : c.Sized size) :
    c.data.values.map Prod.snd = c.keys.map size := by
  rw [values, keys, Dict.keys, map_map, map_map]
  exact map_congr_left fun e he => h e he

/-- As many entries are dropped as have to be, and no more. -/
lemma evictCount_spec {maxsize size : ℕ} (h : size ≤ maxsize) (ns : List ℕ) :
    (ns.drop (evictCount maxsize size ns)).sum + size ≤ maxsize ∧
      ∀ n ∈ (ns.take (evictCount maxsize size ns)).getLast?,
        maxsize < n + (ns.drop (evictCount maxsize size ns)).sum + size := by
  induction ns with
  | nil => simpa [evictCount] using h
  | cons n ns ih =>
    rw [evictCount]
    split
    · rename_i hover
      refine ⟨ih.1, ?_⟩
      rw [take_succ_cons, drop_succ_cons]
      cases htake : ns.take (evictCount maxsize size ns) with
      | nil =>
        rw [← take_append_drop (evictCount maxsize size ns) ns, htake] at hover
        simpa using hover
      | cons m ms =>
        rw [getLast?_cons_cons, ← htake]
        exact ih.2
    · rename_i hfits
      simpa using hfits

lemma filter_ne_of_not_mem {k : K} {order : List K} (h : k ∉ order) :
    order.filter (· ≠ k) = order :=
  filter_eq_self.2 fun a ha => decide_eq_true fun heq : a = k => h (heq ▸ ha)

lemma mem_use {k k' : K} {order : List K} : k' ∈ use k order ↔ k' = k ∨ k' ∈ order := by
  by_cases hk : k' = k <;> simp [use, hk]

lemma nodup_use {k : K} {order : List K} (h : order.Nodup) : (use k order).Nodup := by
  refine (h.filter _).append (nodup_singleton k) fun a ha hk => ?_
  exact of_decide_eq_true (mem_filter.1 ha).2 (mem_singleton.1 hk)

lemma keys_touch {c : Lru K V} {k : K} (hk : k ∈ c.keys) : (c.touch k).keys = use k c.keys := by
  obtain ⟨v, hv⟩ := Option.ne_none_iff_exists'.1 fun hnone => get?_eq_none.1 hnone hk
  show ((c.data.moveToEnd k).entries).map Prod.fst = _
  rw [entries_moveToEnd hv, map_append, use, keys, Dict.keys, filter_map]
  rfl

lemma touch_of_not_mem {c : Lru K V} {k : K} (hk : k ∉ c.keys) : c.touch k = c := by
  unfold touch
  rw [moveToEnd_of_none (get?_eq_none.2 hk)]

lemma foldl_touch {ι : Type} (key : ι → K) (items : List ι) (c : Lru K V) :
    (items.foldl (fun c i => c.touch (key i)) c).data.entries.Perm c.data.entries ∧
      (items.foldl (fun c i => c.touch (key i)) c).maxsize = c.maxsize := by
  induction items generalizing c with
  | nil => exact ⟨.refl _, rfl⟩
  | cons i items ih =>
    obtain ⟨hperm, hmax⟩ := ih (c.touch (key i))
    exact ⟨hperm.trans (entries_moveToEnd_perm c.data (key i)), hmax⟩

omit [DecidableEq K] in
/-- Nothing that is cached is dropped yet. -/
lemma Sized.follows {size : K → ℕ} {c : Lru K V} (h : c.Sized size)
    (hfits : (c.keys.map size).sum ≤ c.maxsize) : c.Follows size c.keys :=
  ⟨h, hfits, c.data.nodup, [], rfl, fun _ hd => by cases hd⟩

namespace Follows

variable {size : K → ℕ} {order : List K} {c : Lru K V} {k : K} (h : c.Follows size order)

include h

/-- A key that was used is cached exactly if it fits together with those that were used since. -/
lemma mem_keys_iff (hk : k ∈ order) :
    k ∈ c.keys ↔ ((order.dropWhile (· ≠ k)).map size).sum ≤ c.maxsize := by
  obtain ⟨dropped, horder, hover⟩ := h.dropped
  have hnodup := h.nodup
  rw [horder] at hk hnodup ⊢
  constructor
  · intro hmem
    have hne : ∀ d ∈ dropped, decide (d ≠ k) = true := by
      intro d hd
      refine decide_eq_true fun heq => ?_
      exact disjoint_of_nodup_append hnodup hd (heq ▸ hmem)
    rw [dropWhile_append_of_pos hne]
    refine le_trans ?_ h.fits
    exact ((dropWhile_sublist _).map size).sum_le_sum fun _ _ => Nat.zero_le _
  · -- The last dropped key is used after `k`, and already it does not fit beside the cached ones.
    intro hsum
    refine (mem_append.1 hk).resolve_left fun hmem => ?_
    have hrest : dropped.dropWhile (· ≠ k) ≠ [] := fun hnil => by
      simpa using dropWhile_eq_nil_iff.1 hnil k hmem
    obtain ⟨before, hbefore⟩ := dropWhile_suffix (l := dropped) (fun a => decide (a ≠ k))
    have hlast := getLast?_eq_some_getLast hrest
    have hd := hover _ (by rw [← hbefore, getLast?_append_of_ne_nil _ hrest]; exact hlast)
    have hle := single_le_sum (fun _ _ => Nat.zero_le _) _
      (mem_map_of_mem (f := size) (getLast_mem hrest))
    rw [dropWhile_append, if_neg (by simpa using hrest), map_append, sum_append] at hsum
    omega

omit [DecidableEq K] in
lemma size_le (hk : k ∈ c.keys) : size k ≤ c.maxsize :=
  (single_le_sum (fun _ _ => Nat.zero_le _) _ (mem_map_of_mem hk)).trans h.fits

omit [DecidableEq K] in
lemma keys_subset : c.keys ⊆ order := by
  obtain ⟨dropped, rfl, -⟩ := h.dropped
  exact subset_append_right dropped _

lemma touch (hk : k ∈ c.keys) : (c.touch k).Follows size (use k order) := by
  obtain ⟨dropped, horder, hover⟩ := h.dropped
  have hperm : (c.touch k).data.entries.Perm c.data.entries := entries_moveToEnd_perm c.data k
  have hsum : ((c.touch k).keys.map size).sum = (c.keys.map size).sum :=
    ((hperm.map Prod.fst).map size).sum_eq
  refine ⟨fun e he => h.sized e (hperm.mem_iff.1 he), hsum.trans_le h.fits, nodup_use h.nodup,
    dropped, ?_, fun d hd => hsum ▸ hover d hd⟩
  have hnodup := h.nodup
  rw [horder] at hnodup
  rw [keys_touch hk, horder, use, use, filter_append, append_assoc,
    filter_ne_of_not_mem fun hmem => disjoint_of_nodup_append hnodup hmem hk]

/-- A key that is not cached is inserted if it fits. -/
lemma putIfFits_of_le (hk : k ∉ c.keys) (hle : size k ≤ c.maxsize) (v : V) :
    (c.putIfFits k v (size k)).2.Follows size (use k order) := by
  obtain ⟨dropped, horder, hover⟩ := h.dropped
  set n := evictCount c.maxsize (size k) (c.keys.map size) with hn
  have hkeys : (c.putIfFits k v (size k)).2.keys = c.keys.drop n ++ [k] := by
    unfold Lru.keys Dict.keys
    rw [entries_putIfFits hle (get?_eq_none.2 hk), h.sized.values_eq, ← hn, map_append, map_drop]
    rfl
  have hmax := maxsize_putIfFits c k v (size k)
  have hspec := evictCount_spec hle (c.keys.map size)
  rw [← hn, ← map_drop, ← map_take] at hspec
  have hsum : ((c.putIfFits k v (size k)).2.keys.map size).sum =
      ((c.keys.drop n).map size).sum + size k := by
    rw [hkeys, map_append, sum_append]
    rfl
  refine ⟨fun e he => ?_, ?_, nodup_use h.nodup, dropped.filter (· ≠ k) ++ c.keys.take n, ?_, ?_⟩
  · rcases mem_putIfFits he with hold | rfl
    · exact h.sized e hold
    · rfl
  · rw [hsum, hmax]
    exact hspec.1
  · rw [hkeys, use, horder, filter_append, filter_ne_of_not_mem hk, append_assoc, append_assoc,
      ← append_assoc (c.keys.take n), take_append_drop]
  · intro d hd
    rw [hmax, hsum, ← Nat.add_assoc]
    by_cases htake : c.keys.take n = []
    · -- Nothing is dropped, so `k` was not the last key to be dropped.
      have hdrop : c.keys.drop n = c.keys := by
        rw [← nil_append (c.keys.drop n), ← htake, take_append_drop]
      rw [htake, append_nil] at hd
      rw [hdrop] at hspec ⊢
      rcases eq_nil_or_concat' dropped with rfl | ⟨first, x, rfl⟩
      · cases hd
      · have hx := hover x (getLast?_concat)
        have hxk : x ≠ k := by
          rintro rfl
          omega
        rw [filter_append, filter_singleton, decide_eq_true hxk, cond_true,
          getLast?_concat] at hd
        cases hd
        omega
    · rw [getLast?_append_of_ne_nil _ htake] at hd
      exact hspec.2 _ (by rw [getLast?_map, hd]; rfl)

/-- A key that is not cached is used if it fits into the cache at all. -/
lemma putIfFits (hk : k ∉ c.keys) (v : V) : (c.putIfFits k v (size k)).2.Follows size
    (if size k ≤ c.maxsize then use k order else order) := by
  split
  · rename_i hle
    exact h.putIfFits_of_le hk hle v
  · rename_i hlt
    rw [Lru.putIfFits, if_pos (Nat.lt_of_not_le hlt)]
    exact h

end Follows

/-! ## Keys that are used together -/

/-- What was used after a key of the group is of the group. -/
def Recent (group order : List K) : Prop := order.Pairwise fun a b => a ∈ group → b ∈ group

namespace Recent

variable {size : K → ℕ} {group order : List K} {c : Lru K V} {k : K}

lemma filter_ne (h : Recent group order) (k : K) :
    Recent (group ++ [k]) (order.filter (· ≠ k)) := by
  refine (h.sublist filter_sublist).imp_of_mem fun {a b} ha _ hab hmem => ?_
  refine mem_append_left _ (hab ((mem_append.1 hmem).resolve_right fun hk => ?_))
  exact of_decide_eq_true (mem_filter.1 ha).2 (mem_singleton.1 hk)

lemma touch (h : Recent group c.keys) (k : K) : Recent (group ++ [k]) (c.touch k).keys := by
  have hfilter := h.filter_ne k
  by_cases hk : k ∈ c.keys
  · rw [keys_touch hk, Lru.use]
    refine pairwise_append.2 ⟨hfilter, pairwise_singleton _ _, fun a _ b hb _ => ?_⟩
    exact mem_append_right _ hb
  · rw [filter_ne_of_not_mem hk] at hfilter
    rwa [touch_of_not_mem hk]

lemma use (h : Recent group order) (hk : k ∈ group) : Recent group (use k order) := by
  refine pairwise_append.2 ⟨h.sublist filter_sublist, pairwise_singleton _ _, fun a _ b hb _ => ?_⟩
  rwa [mem_singleton.1 hb]

end Recent

end Lru

end Lvllm
