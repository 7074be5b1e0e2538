import Mathlib.Data.List.Sort
import Mathlib.Data.List.SplitBy
import Lvllm.Foundation.Dict

/-!
# Groups of a sorted list

A list that is sorted by a key and cut where the key changes falls into the groups of its keys: each
run is the list of all elements with one key.  A dictionary that is filled with the groups then knows,
for every key, all elements with the key.
-/

namespace Lvllm

open List

variable {α κ V : Type}

/-! ## Runs of a sorted list -/

section Runs

variable [LinearOrder κ] (key : α → κ)

/-- The runs of a list in which neighbours have one key. -/
def runsOf (l : List α) : List (List α) := l.splitBy fun a b => key a = key b

variable {key} {g : List α}

/-- The runs behind the first one have greater keys. -/
lemma lt_of_mem_later_runs {gs : List (List α)} (hne : [] ∉ g :: gs)
    (hcuts : (g :: gs).IsChain fun a b => ∃ ha hb, decide (key (a.getLast ha) = key (b.head hb)) = false)
    (hsorted : (g :: gs).flatten.Pairwise fun a b => key a ≤ key b) {k : κ}
    (hkey : ∀ x ∈ g, key x = k) : ∀ y ∈ gs.flatten, k < key y := by
  rw [flatten_cons, pairwise_append] at hsorted
  obtain ⟨-, hrest, hcross⟩ := hsorted
  cases gs with
  | nil => exact nofun
  | cons g' gs =>
    obtain ⟨hg, hg', hcut⟩ := (isChain_cons_cons.1 hcuts).1
    obtain ⟨z, rest, rfl⟩ := exists_cons_of_ne_nil hg'
    have hlast := hkey _ (getLast_mem hg)
    have hz : k < key z := by
      refine lt_of_le_of_ne ?_ fun heq => of_decide_eq_false hcut (hlast.trans heq)
      rw [← hlast]
      exact hcross _ (getLast_mem hg) _ (mem_append_left _ mem_cons_self)
    intro y hy
    rw [flatten_cons, cons_append, pairwise_cons] at hrest
    rcases mem_cons.1 hy with rfl | hy
    · exact hz
    · exact hz.trans_le (hrest.1 y hy)

/-- Runs of a sorted list that are cut where the key changes are the groups of its keys. -/
lemma run_eq_filter {gs : List (List α)} (hne : [] ∉ gs)
    (hruns : ∀ g ∈ gs, g.IsChain fun a b => decide (key a = key b) = true)
    (hcuts : gs.IsChain fun a b => ∃ ha hb, decide (key (a.getLast ha) = key (b.head hb)) = false)
    (hsorted : gs.flatten.Pairwise fun a b => key a ≤ key b) (hg : g ∈ gs) {x : α}
    (hx : x ∈ g) : g = gs.flatten.filter fun y => key y = key x := by
  induction gs with
  | nil => cases hg
  | cons g' gs ih =>
    obtain ⟨z, rest, hz⟩ := exists_cons_of_ne_nil fun hnil : g' = [] =>
      hne (hnil ▸ mem_cons_self)
    have hsame : ∀ y ∈ g', key y = key z := by
      have hchain := hruns g' mem_cons_self
      rw [hz, isChain_iff_pairwise, pairwise_cons] at hchain
      intro y hy
      rw [hz] at hy
      rcases mem_cons.1 hy with rfl | hy
      · rfl
      · exact (of_decide_eq_true (hchain.1 y hy)).symm
    have hlater := lt_of_mem_later_runs hne hcuts hsorted hsame
    rw [flatten_cons, filter_append]
    rcases mem_cons.1 hg with rfl | hg
    · -- the first run has its key for itself
      have hself : g.filter (fun y => key y = key x) = g := by
        refine filter_eq_self.2 fun y hy => ?_
        rw [hsame x hx]
        exact decide_eq_true (hsame y hy)
      have hother : gs.flatten.filter (fun y => key y = key x) = [] := by
        refine filter_eq_nil_iff.2 fun y hy hkey => ?_
        have hlt := hlater y hy
        rw [of_decide_eq_true hkey, hsame x hx] at hlt
        exact lt_irrefl _ hlt
      rw [hself, hother, append_nil]
    · have hnil : g'.filter (fun y => key y = key x) = [] := by
        refine filter_eq_nil_iff.2 fun y hy hkey => ?_
        have hlt := hlater x (mem_flatten.2 ⟨g, hg, hx⟩)
        rw [← of_decide_eq_true hkey, hsame y hy] at hlt
        exact lt_irrefl _ hlt
      rw [hnil, nil_append]
      refine ih (fun h => hne (mem_cons_of_mem _ h)) (fun g hg => hruns g (mem_cons_of_mem _ hg))
        hcuts.tail ?_ hg
      rw [flatten_cons, pairwise_append] at hsorted
      exact hsorted.2.1

/-- The run of an element of a sorted list consists of all elements with its key. -/
lemma eq_filter_of_mem_runsOf {l : List α} (hsorted : l.Pairwise fun a b => key a ≤ key b)
    (hg : g ∈ runsOf key l) {x : α} (hx : x ∈ g) :
    g = l.filter fun y => key y = key x := by
  have h := run_eq_filter (nil_notMem_splitBy _ l) (fun g hg => isChain_of_mem_splitBy hg)
    (isChain_getLast_head_splitBy (fun a b => decide (key a = key b)) l)
    (by rw [flatten_splitBy]; exact hsorted) hg hx
  rw [flatten_splitBy] at h
  exact h

lemma exists_mem_runsOf {l : List α} {x : α} (hx : x ∈ l) : ∃ g ∈ runsOf key l, x ∈ g := by
  rw [← flatten_splitBy (fun a b => decide (key a = key b)) l] at hx
  exact mem_flatten.1 hx

end Runs

/-! ## Filling a dictionary -/

namespace Dict

variable {K : Type} [DecidableEq K] {ps : List (K × V)} {k : K} {d : Dict K V}

/-- Set the pairs of a list one after the other. -/
def setAll (d : Dict K V) (ps : List (K × V)) : Dict K V := ps.foldl (fun d p => d.set p.1 p.2) d

lemma get?_setAll_of_forall_ne (d : Dict K V)
    (h : ∀ p ∈ ps, p.1 ≠ k) : (d.setAll ps).get? k = d.get? k := by
  induction ps generalizing d with
  | nil => rfl
  | cons p ps ih =>
    show ((d.set p.1 p.2).setAll ps).get? k = d.get? k
    rw [ih _ fun q hq => h q (mem_cons_of_mem _ hq), get?_set_ne _ (h p mem_cons_self).symm]

/-- A key that has one value in the list has this value in the dictionary. -/
lemma get?_setAll (d : Dict K V) {v : V} (hmem : (k, v) ∈ ps)
    (hone : ∀ p ∈ ps, p.1 = k → p.2 = v) : (d.setAll ps).get? k = some v := by
  induction ps generalizing d with
  | nil => cases hmem
  | cons p ps ih =>
    show ((d.set p.1 p.2).setAll ps).get? k = some v
    by_cases hlater : (k, v) ∈ ps
    · exact ih _ hlater fun q hq => hone q (mem_cons_of_mem _ hq)
    · have hp : (k, v) = p := (mem_cons.1 hmem).resolve_right hlater
      rw [get?_setAll_of_forall_ne, ← hp, get?_set_self]
      rintro ⟨k', v'⟩ hq rfl
      exact hlater (hone _ (mem_cons_of_mem _ hq) rfl ▸ hq)

/-- Give the keys of a list that have no value a default one. -/
def setDefaults (d : Dict K V) (ks : List K) (v : V) : Dict K V :=
  ks.foldl (fun d k => if d.contains k then d else d.set k v) d

/-- A default value does not change what is there. -/
lemma get?_setDefaults_of_some (ks : List K) (v : V) {u : V}
    (h : d.get? k = some u) : (d.setDefaults ks v).get? k = some u := by
  induction ks generalizing d with
  | nil => exact h
  | cons k' ks ih =>
    show ((if d.contains k' then d else d.set k' v).setDefaults ks v).get? k = some u
    split
    · exact ih h
    · rename_i hnot
      refine ih ?_
      rw [get?_set_ne _ ?_]
      · exact h
      · rintro rfl
        refine hnot ?_
        rw [contains, h]
        rfl

lemma get?_setDefaults_of_none {ks : List K} (v : V) (hk : k ∈ ks)
    (h : d.get? k = none) : (d.setDefaults ks v).get? k = some v := by
  induction ks generalizing d with
  | nil => cases hk
  | cons k' ks ih =>
    show ((if d.contains k' then d else d.set k' v).setDefaults ks v).get? k = some v
    by_cases hsame : k' = k
    · subst hsame
      have hnot : ¬d.contains k' = true := by
        rw [contains, h]
        exact Bool.false_ne_true
      rw [if_neg hnot]
      exact get?_setDefaults_of_some ks v (get?_set_self d k' v)
    · have hk' : k ∈ ks := (mem_cons.1 hk).resolve_left (Ne.symm hsame)
      split
      · exact ih hk' h
      · refine ih hk' ?_
        rw [get?_set_ne _ (Ne.symm hsame)]
        exact h

end Dict

end Lvllm
