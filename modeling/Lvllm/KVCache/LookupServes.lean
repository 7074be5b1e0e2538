import Lvllm.KVCache.MambaLookup
import Lvllm.KVCache.WindowHit

/-!
# What a lookup serves

A request that starts behind a hit reads tokens in front of it: all of them in full attention, the
last ones of a window, and in a Mamba group the state at the end of the hit.  `Serves` says that each
token that is read lies in a row of the hit, and that this row is cached under a hash of the request
that ends in the same block, behind the token.

The lookups of full attention, of a sliding window and of a Mamba group serve what they return, and
they return whenever the hashes reach as far as the length asked for.
-/

namespace Lvllm

open List Nat

variable {H : Type}

/-! ## Rows that serve a token -/

namespace BlockPool

/-- The row holds token `t`: it is cached under a hash that ends in the block of `t`, behind `t`. -/
def RowServes (p : BlockPool H) (groupIds : List ℕ) (hashes : List H) (blockSize t : ℕ)
    (row : List ℕ) : Prop :=
  ∃ idx, p.CachedUnder groupIds hashes idx row ∧
    idx * p.hasher.hashBlockSize / blockSize = t / blockSize ∧
    t < (idx + 1) * p.hasher.hashBlockSize

variable {p : BlockPool H} {groupIds : List ℕ} {hashes resolved : List H} {blockSize : ℕ}

variable (hb : 0 < blockSize) (hdvd : p.hasher.hashBlockSize ∣ blockSize) {row : List ℕ}

include hb hdvd

/-- A row that is cached under the hash of its block holds every token of the block. -/
lemma CachedUnder.rowServes
    (hres : Resolved hashes p.hasher.hashBlockSize blockSize resolved) {t : ℕ}
    (h : p.CachedUnder groupIds resolved (t / blockSize) row) :
    p.RowServes groupIds hashes blockSize t row := by
  obtain ⟨hash, hhash, hrow⟩ := h
  have hpos := p.hasher.hashBlockSize_pos
  obtain ⟨k, hk⟩ := hdvd
  have hk' : blockSize / p.hasher.hashBlockSize = k := by rw [hk, Nat.mul_div_cancel_left k hpos]
  have hkpos : 0 < k := Nat.pos_of_ne_zero fun h0 => by simp [h0] at hk; omega
  have hget := hres.get _ hash hhash
  rw [hk'] at hget
  have hidx : 0 < (t / blockSize + 1) * k := mul_pos (succ_pos _) hkpos
  have hend : (t / blockSize + 1) * k * p.hasher.hashBlockSize = (t / blockSize + 1) * blockSize := by
    rw [hk, mul_assoc, mul_comm k]
  refine ⟨_, ⟨hash, hget, hrow⟩, ?_, ?_⟩
  · have hle : p.hasher.hashBlockSize ≤ blockSize := hk ▸ Nat.le_mul_of_pos_right _ hkpos
    rw [Nat.sub_mul, hend, one_mul]
    refine Nat.div_eq_of_lt_le ?_ ?_
    · rw [Nat.add_mul, one_mul]
      omega
    · rw [add_mul, one_mul]
      omega
  · rw [Nat.sub_add_cancel hidx, hend]
    exact (Nat.div_lt_iff_lt_mul hb).1 (Nat.lt_succ_self _)

/-- The row of each token in front of `n` holds it. -/
def RowsServe (p : BlockPool H) (groupIds : List ℕ) (hashes : List H) (blockSize : ℕ)
    (rows : List (List ℕ)) (n : ℕ) : Prop :=
  ∀ t < n, ∃ row, rows[t / blockSize]? = some row ∧ p.RowServes groupIds hashes blockSize t row

variable {rows : List (List ℕ)} {n maxLength alignmentTokens : ℕ}

omit hdvd in
/-- Rows that serve `n` tokens serve fewer, also when the rest is cut off. -/
lemma RowsServe.take {n' : ℕ} (h : p.RowsServe groupIds hashes blockSize rows n) (hle : n' ≤ n) :
    p.RowsServe groupIds hashes blockSize (rows.take (cdiv n' blockSize)) n' := by
  intro t ht
  obtain ⟨row, hrow, hserves⟩ := h t (ht.trans_le hle)
  have hlt : t / blockSize < cdiv n' blockSize := by
    rw [div_lt_iff_lt_mul hb]
    exact ht.trans_le ((cdiv_le_iff hb).1 le_rfl)
  exact ⟨row, by rw [getElem?_take_of_lt hlt, hrow], hserves⟩

/-! ## Full attention -/

/-- The run from the left serves its blocks. -/
lemma rowsServe_cachedRun (groupIds : List ℕ)
    (hres : Resolved hashes p.hasher.hashBlockSize blockSize resolved) (k : ℕ) :
    p.RowsServe groupIds hashes blockSize (p.cachedRun groupIds (resolved.take k))
      ((p.cachedRun groupIds (resolved.take k)).length * blockSize) := by
  intro t ht
  have hlt := (div_lt_iff_lt_mul hb).2 ht
  have hrow := getElem?_eq_getElem hlt
  obtain ⟨hash, hhash, hcached⟩ := getElem?_cachedRun hrow
  rw [getElem?_take, Option.ite_none_right_eq_some] at hhash
  exact ⟨_, hrow, CachedUnder.rowServes hb hdvd hres ⟨hash, hhash.2, hcached⟩⟩

omit hb hdvd in
lemma length_cachedRun_mul_le (p : BlockPool H) (groupIds : List ℕ) (resolved : List H)
    (maxLength blockSize : ℕ) :
    (p.cachedRun groupIds (resolved.take (maxLength / blockSize))).length * blockSize ≤
      maxLength := by
  have hlen := length_cachedRun_le p groupIds (resolved.take (maxLength / blockSize))
  have hle : (resolved.take (maxLength / blockSize)).length ≤ maxLength / blockSize :=
    length_take_le _ _
  exact (mul_le_mul_right _ (hlen.trans hle)).trans (div_mul_le_self _ _)

/-- What every lookup promises besides what it serves. -/
structure HitShape (groupIds : List ℕ) (blockSize alignmentTokens maxLength margin : ℕ)
    (rows : List (List ℕ)) (n : ℕ) : Prop where
  length_eq : rows.length = cdiv n blockSize
  width : ∀ row ∈ rows, row.length = groupIds.length
  aligned : alignmentTokens ∣ n
  le_maxLength : n ≤ maxLength
  /-- A lookup that drops its end leaves room for what it drops. -/
  le_of_drop : 0 < n → n + margin ≤ maxLength

omit hdvd in
/-- The end of the full attention lookup: the EAGLE unit is dropped and the length aligned. -/
lemma fullAttention_finish {hit : ℕ} {drop : Bool}
    (hserves : p.RowsServe groupIds hashes blockSize rows hit)
    (hlen : rows.length = cdiv hit blockSize) (hwidth : ∀ row ∈ rows, row.length = groupIds.length)
    (hle : hit ≤ maxLength) {hit' : ℕ}
    (hhit' : hit' = if drop && decide (0 < hit) then hit - min alignmentTokens blockSize else hit) :
    p.RowsServe groupIds hashes blockSize
        (rows.take (cdiv (hit' - hit' % alignmentTokens) blockSize))
        (hit' - hit' % alignmentTokens) ∧
      HitShape groupIds blockSize alignmentTokens maxLength
        (if drop then min alignmentTokens blockSize else 0)
        (rows.take (cdiv (hit' - hit' % alignmentTokens) blockSize))
        (hit' - hit' % alignmentTokens) := by
  have hle' : hit' ≤ hit := by
    rw [hhit']
    split <;> omega
  have hcut : hit' - hit' % alignmentTokens ≤ hit := (sub_le _ _).trans hle'
  refine ⟨hserves.take hb hcut, ?_, fun row hrow => hwidth row (mem_of_mem_take hrow),
    dvd_sub_mod hit', hcut.trans hle, fun hpos => ?_⟩
  · rw [length_take, hlen]
    exact min_eq_left (cdiv_mono _ hcut)
  · cases drop with
    | false => exact hcut.trans hle
    | true =>
      rw [Bool.true_and, if_pos (decide_eq_true (by omega))] at hhit'
      simp only [if_true]
      omega

omit hdvd in
/-- A tail that is cached under a finer hash, behind whole blocks. -/
lemma RowsServe.append_tail {idx : ℕ}
    (h : p.RowsServe groupIds hashes blockSize rows (rows.length * blockSize))
    (hcached : p.CachedUnder groupIds hashes idx row)
    (hlo : rows.length * blockSize ≤ idx * p.hasher.hashBlockSize)
    (hhi : (idx + 1) * p.hasher.hashBlockSize ≤ (rows.length + 1) * blockSize) :
    p.RowsServe groupIds hashes blockSize (rows ++ [row]) ((idx + 1) * p.hasher.hashBlockSize) := by
  intro t ht
  rcases lt_or_ge t (rows.length * blockSize) with hlt | hge
  · obtain ⟨row', hrow', hserves⟩ := h t hlt
    exact ⟨row', by rw [getElem?_append_left ((div_lt_iff_lt_mul hb).2 hlt), hrow'], hserves⟩
  · have hpos := p.hasher.hashBlockSize_pos
    have hdiv : t / blockSize = rows.length := Nat.div_eq_of_lt_le hge (ht.trans_le hhi)
    refine ⟨row, by rw [hdiv, getElem?_append_right le_rfl, Nat.sub_self]; rfl,
      idx, hcached, ?_, ht⟩
    rw [hdiv]
    refine Nat.div_eq_of_lt_le hlo (lt_of_lt_of_le ?_ hhi)
    rw [Nat.add_mul, one_mul]
    omega

/-- Full attention lookups return, and serve all tokens of the hit. -/
lemma fullAttentionHit_serves (hashes : List H) (groupIds : List ℕ)
    (hfine : alignmentTokens < blockSize → blockSize % alignmentTokens = 0 →
      alignmentTokens = p.hasher.hashBlockSize) (maxLength : ℕ) (drop : Bool) :
    ∃ rows n, p.fullAttentionHit hashes maxLength groupIds blockSize drop alignmentTokens =
        .ok (rows, n) ∧ p.RowsServe groupIds hashes blockSize rows n ∧
      HitShape groupIds blockSize alignmentTokens maxLength
        (if drop then min alignmentTokens blockSize else 0) rows n := by
  obtain ⟨resolved, hresolve, hres⟩ := resolveBlockHashes_ok hashes hb hdvd
  have hrun := rowsServe_cachedRun hb hdvd groupIds hres (maxLength / blockSize)
  have hrunLe := length_cachedRun_mul_le p groupIds resolved maxLength blockSize
  have hrunWidth : ∀ row ∈ p.cachedRun groupIds (resolved.take (maxLength / blockSize)),
      row.length = groupIds.length := by
    intro row hrow
    obtain ⟨j, hj⟩ := getElem?_of_mem hrow
    have hcached : p.CachedUnder groupIds (resolved.take (maxLength / blockSize)) j row :=
      getElem?_cachedRun hj
    exact hcached.length_eq
  unfold fullAttentionHit
  by_cases hf : alignmentTokens < blockSize ∧ blockSize % alignmentTokens = 0
  · have halign := hfine hf.1 hf.2
    rw [resolveLookupHashes_fine hf]
    simp only [decide_eq_true hf, if_true, bind, Except.bind, pure, Except.pure]
    rw [halign, hresolve]
    dsimp only
    generalize p.cachedRun groupIds (resolved.take (maxLength / blockSize)) = rows0
      at hrun hrunLe hrunWidth
    have hscale : blockSize / p.hasher.hashBlockSize * p.hasher.hashBlockSize = blockSize :=
      Nat.div_mul_cancel hdvd
    cases htail : p.cachedTail groupIds hashes (rows0.length * (blockSize / p.hasher.hashBlockSize))
        (min (min (rows0.length * (blockSize / p.hasher.hashBlockSize) +
          blockSize / p.hasher.hashBlockSize - 1) (maxLength / p.hasher.hashBlockSize))
          hashes.length - rows0.length * (blockSize / p.hasher.hashBlockSize)) with
    | none =>
      exact ⟨_, _, rfl, fullAttention_finish hb hrun (cdiv_mul_self hb _).symm hrunWidth hrunLe rfl⟩
    | some tail =>
      obtain ⟨row, idx⟩ := tail
      obtain ⟨hlo, hhi, hcached⟩ := cachedTail_eq_some htail
      have hpos := p.hasher.hashBlockSize_pos
      -- The partial hit ends inside the block after the run.
      have hlo' : rows0.length * blockSize ≤ idx * p.hasher.hashBlockSize := by
        rw [← hscale, ← mul_assoc]
        exact mul_le_mul_right _ hlo
      have hhi' : (idx + 1) * p.hasher.hashBlockSize ≤ (rows0.length + 1) * blockSize := by
        rw [← hscale, ← mul_assoc]
        refine mul_le_mul_right _ ?_
        rw [add_mul]
        omega
      have hmax : (idx + 1) * p.hasher.hashBlockSize ≤ maxLength :=
        (Nat.mul_le_mul_right _ (by omega)).trans (Nat.div_mul_le_self maxLength _)
      have hlt : rows0.length * blockSize < (idx + 1) * p.hasher.hashBlockSize := by
        rw [Nat.add_mul, one_mul]
        omega
      refine ⟨_, _, rfl, fullAttention_finish hb (hrun.append_tail hb hcached hlo' hhi') ?_ ?_ hmax rfl⟩
      · rw [length_append, length_singleton, cdiv_eq_succ hb hlt hhi']
      · intro row' hrow'
        rcases mem_append.1 hrow' with hold | hnew
        · exact hrunWidth row' hold
        · rw [mem_singleton.1 hnew]
          exact CachedUnder.length_eq hcached
  · rw [resolveLookupHashes_coarse fun _ => hf, hresolve]
    simp only [decide_eq_false hf, Bool.false_eq_true, if_false, bind, Except.bind, pure,
      Except.pure]
    exact ⟨_, _, rfl, fullAttention_finish hb hrun (cdiv_mul_self hb _).symm hrunWidth hrunLe rfl⟩

/-! ## Sliding windows -/

/-- Sliding window lookups return, and serve the window in front of the hit's end. -/
lemma slidingWindowHit_serves (groupIds : List ℕ) (hmod : alignmentTokens % blockSize = 0)
    (hcover : maxLength / p.hasher.hashBlockSize ≤ hashes.length) (window : ℕ) (drop : Bool) :
    ∃ rows n, p.slidingWindowHit hashes maxLength groupIds blockSize window drop alignmentTokens =
        .ok (rows, n) ∧
      (∀ t < n, n ≤ t + (window - 1) → ∃ row, rows[t / blockSize]? = some row ∧
        p.RowServes groupIds hashes blockSize t row) ∧
      HitShape groupIds blockSize alignmentTokens maxLength
        (if drop then min alignmentTokens blockSize else 0) rows n := by
  obtain ⟨resolved, hresolve, hres⟩ := resolveBlockHashes_ok hashes hb hdvd
  have hlookup : resolveLookupHashes hashes p.hasher.hashBlockSize blockSize alignmentTokens false =
      .ok resolved := by
    rw [resolveLookupHashes_coarse (fun h => by cases h), hresolve]
  obtain ⟨rows, lo, run, hhit, hrows, -⟩ := slidingWindowHit_ok hb hmod hlookup
    (hres.le_length hdvd hcover) groupIds window drop rfl
  have hmul := div_mul_le_self maxLength blockSize
  refine ⟨rows, rows.length * blockSize, hhit, ?_, (cdiv_mul_self hb _).symm, hrows.width,
    dvd_of_mod_eq_zero hrows.aligned, (mul_le_mul_right _ hrows.length_le).trans hmul,
    fun hpos => ?_⟩
  · intro t ht hwindow
    have hlt := (div_lt_iff_lt_mul hb).2 ht
    have hneeded := (cdiv_le_iff (k := cdiv (window - 1) blockSize) hb).1 le_rfl
    refine ⟨_, getElem?_eq_getElem hlt, CachedUnder.rowServes hb hdvd hres
      (hrows.cached _ _ ?_ (getElem?_eq_getElem hlt))⟩
    rcases hrows.enough with hle | rfl
    · rw [le_div_iff_mul_le hb]
      have hmul' := mul_le_mul_right blockSize hle
      rw [add_mul] at hmul'
      omega
    · exact zero_le _
  · cases drop with
    | false => exact (mul_le_mul_right _ hrows.length_le).trans hmul
    | true =>
      have hle := Nat.mul_le_mul_right blockSize
        (hrows.length_lt rfl (Nat.pos_of_mul_pos_right hpos))
      rw [Nat.add_mul, one_mul] at hle
      simp only [if_true]
      omega

/-! ## Mamba states -/

/-- The row holds the state after `n` tokens: it is cached under the hash that ends there. -/
def StateServes (p : BlockPool H) (groupIds : List ℕ) (hashes : List H) (n : ℕ) (row : List ℕ) :
    Prop :=
  ∃ idx, p.CachedUnder groupIds hashes idx row ∧ (idx + 1) * p.hasher.hashBlockSize = n

omit hb hdvd in
/-- The scan returns if there are hashes for the positions it visits. -/
lemma mambaScan_ok (p : BlockPool H) (groupIds : List ℕ) (blockSize alignmentTokens : ℕ) {i : ℕ}
    (hi : i ≤ resolved.length) :
    ∃ hit, p.mambaScan groupIds resolved blockSize alignmentTokens i = .ok hit := by
  induction i with
  | zero => exact ⟨_, rfl⟩
  | succ i ih =>
    simp only [mambaScan, getElem?_eq_getElem hi]
    split
    · exact ih (by omega)
    · split
      · exact ih (by omega)
      · exact ⟨_, rfl⟩

omit hb hdvd in
/-- The rows of a state have a block for each group. -/
lemma StateRows.width {unit : ℕ} (h : StateRows p groupIds hashes blockSize unit rows n) :
    ∀ row ∈ rows, row.length = groupIds.length := by
  rcases h with ⟨rfl, -⟩ | ⟨idx, hash, row, hhash, hrow, -, -, rfl⟩
  · exact nofun
  · intro row' hmem
    rcases mem_append.1 hmem with hnull | hlast
    · rw [eq_of_mem_replicate hnull, length_map]
    · rw [mem_singleton.1 hlast]
      exact CachedUnder.length_eq ⟨hash, hhash, hrow⟩

omit hdvd in
/-- The rows of a state cover its tokens. -/
lemma StateRows.length_eq {unit : ℕ}
    (h : StateRows p groupIds hashes blockSize unit rows n) : rows.length = cdiv n blockSize := by
  rcases h with ⟨rfl, rfl⟩ | ⟨idx, hash, row, -, -, -, hpos, rfl⟩
  · exact (le_zero.1 ((cdiv_le_iff hb).2 (zero_le _))).symm
  · rw [length_append, length_replicate, length_singleton]
    refine (cdiv_eq_succ hb ?_ ?_).symm
    · have := div_mul_le_self (n - 1) blockSize
      omega
    · have := (div_lt_iff_lt_mul hb).1 (lt_succ_self ((n - 1) / blockSize))
      rw [succ_eq_add_one] at this
      omega

/-- Mamba lookups return, and serve the state at the end of the hit. -/
lemma mambaHit_serves
    (groupIds : List ℕ) (hfine : alignmentTokens < blockSize → blockSize % alignmentTokens = 0 →
      alignmentTokens = p.hasher.hashBlockSize)
    (hcover : maxLength / p.hasher.hashBlockSize ≤ hashes.length) :
    ∃ rows n, p.mambaHit hashes maxLength groupIds blockSize alignmentTokens = .ok (rows, n) ∧
      (0 < n → ∃ row, rows[(n - 1) / blockSize]? = some row ∧ p.StateServes groupIds hashes n row) ∧
      HitShape groupIds blockSize alignmentTokens maxLength 0 rows n := by
  obtain ⟨resolved, hresolve, hres⟩ := resolveBlockHashes_ok hashes hb hdvd
  obtain ⟨⟨rows, n⟩, hhit⟩ : ∃ hit, p.mambaHit hashes maxLength groupIds blockSize alignmentTokens =
      .ok hit := by
    unfold mambaHit
    by_cases hf : alignmentTokens < blockSize ∧ blockSize % alignmentTokens = 0
    · rw [resolveLookupHashes_fine hf]
      simp only [bind, Except.bind, if_pos hf]
      split <;> exact ⟨_, rfl⟩
    · rw [resolveLookupHashes_coarse fun _ => hf, hresolve]
      simp only [bind, Except.bind, if_neg hf]
      exact mambaScan_ok p groupIds blockSize alignmentTokens (hres.le_length hdvd hcover)
  obtain ⟨lookup, hlookup, hstate, hle, hdvd'⟩ := mambaHit_spec hb hhit
  refine ⟨rows, n, hhit, fun hpos => ?_, hstate.length_eq hb, hstate.width, hdvd', hle, fun _ => hle⟩
  rcases hstate with ⟨-, rfl⟩ | ⟨idx, hash, row, hhash, hrow, hn, -, rfl⟩
  · cases hpos
  refine ⟨row, by rw [getElem?_append_right (by simp)]; simp, ?_⟩
  by_cases hf : alignmentTokens < blockSize ∧ blockSize % alignmentTokens = 0
  · rw [resolveLookupHashes_fine hf, Except.ok.injEq] at hlookup
    subst hlookup
    rw [if_pos hf, hfine hf.1 hf.2] at hn
    exact ⟨idx, ⟨hash, hhash, hrow⟩, hn.symm⟩
  · rw [resolveLookupHashes_coarse (fun _ => hf), hresolve, Except.ok.injEq] at hlookup
    subst hlookup
    rw [if_neg hf] at hn
    have hpos' : 0 < (idx + 1) * (blockSize / p.hasher.hashBlockSize) :=
      mul_pos (succ_pos idx) (div_pos (le_of_dvd hb hdvd) p.hasher.hashBlockSize_pos)
    refine ⟨_, ⟨hash, hres.get idx hash hhash, hrow⟩, ?_⟩
    rw [Nat.sub_add_cancel hpos', Nat.mul_assoc, Nat.div_mul_cancel hdvd, hn]

end BlockPool

end Lvllm
