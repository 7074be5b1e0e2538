import Lvllm.KVCache.Tables
import Lvllm.KVCache.LookupServes

/-!
# What a lookup returns

Every block that a lookup returns has a key that names the position it is returned at, and the hit
length is aligned and not longer than what was asked for.  `LookupSound` collects this for one
lookup; the hybrid coordinator keeps it while it shortens its candidate, and `PrefixHit` is what
`get_computed_blocks` gives to `allocate_slots`.
-/

namespace Lvllm

open Nat

variable {H : Type}

variable [DecidableEq H]

/-! ## Hashes at block positions -/

/-- The hash at index `t` ends a chain that fills the blocks up to `t`. -/
def HashesAt (bh : BlockHasher H) (blockSize : ℕ) (hashes : List H) : Prop :=
  ∀ (t : ℕ) (h : H), hashes[t]? = some h →
    ∃ d, HashDepth bh h d ∧ d * bh.hashBlockSize = (t + 1) * blockSize

/-- A chain, as a list of hashes. -/
def Chained (bh : BlockHasher H) (hashes : List H) : Prop :=
  ∀ (t : ℕ) (h : H), hashes[t]? = some h → HashDepth bh h (t + 1)

variable {hashes : List H} {bh : BlockHasher H} {resolved : List H}

/-- The view of a chain in blocks of a group. -/
lemma Chained.resolve {blockSize : ℕ} (h : Chained bh hashes) (hb : 0 < blockSize)
    (hres : resolveBlockHashes hashes bh.hashBlockSize blockSize = .ok resolved) :
    HashesAt bh blockSize resolved := by
  intro t hash ht
  obtain ⟨d, hd, hget, hlen⟩ := resolveBlockHashes_index hb hres ht
  have hdepth := h _ hash hget
  rw [Nat.sub_add_cancel hd] at hdepth
  exact ⟨d, hdepth, hlen⟩

lemma Request.HashesChained.chained {r : Request H} (h : r.HashesChained bh) :
    Chained bh r.blockHashes :=
  fun _ _ ht => h.depth ht

/-! ## Lookups of one spec -/

/-- Each block of the row has a key that names block `j` of its group. -/
def RowAt (p : BlockPool H) (blockSize : ℕ) (groupIds : List ℕ) (j : ℕ) (row : List ℕ) : Prop :=
  List.Forall₂ (fun g b => ∃ key ∈ p.keysOf b, KeyAt p.hasher blockSize g j key) groupIds row

/-- What one lookup promises: a row is cached at its position, or null where the spec does not need
it; the hit is aligned, and dropping a block for EAGLE leaves room for it. -/
structure LookupSound (p : BlockPool H) (spec : KVCacheSpec) (groupIds : List ℕ)
    (alignmentTokens maxLength : ℕ) (dropEagleBlock : Bool) (rows : List (List ℕ))
    (hitLength : ℕ) : Prop where
  row : ∀ (j : ℕ) (row : List ℕ), rows[j]? = some row → RowAt p spec.blockSize groupIds j row ∨
    spec.isFullAttention = false ∧ row = groupIds.map fun _ => p.nullBlock
  aligned : hitLength % alignmentTokens = 0
  length_eq : rows.length = cdiv hitLength spec.blockSize
  whole : spec.isFullAttention = false → hitLength % spec.blockSize = 0
  le_maxLength : hitLength ≤ maxLength
  le_of_drop : dropEagleBlock = true → 0 < hitLength →
    hitLength + min alignmentTokens spec.blockSize ≤ maxLength

namespace BlockPool

variable {p : BlockPool H} {groupIds : List ℕ} {row : List ℕ} {hash : H} {blockSize : ℕ}

/-- A cached row is at the position that the chain of its hash ends in. -/
lemma rowAt_of_getCachedBlock (hp : p.IndexInv)
    (hrow : p.getCachedBlock hash groupIds = some row) {d j : ℕ}
    (hd : HashDepth p.hasher hash d) (hlo : j * blockSize < d * p.hasher.hashBlockSize)
    (hhi : d * p.hasher.hashBlockSize ≤ (j + 1) * blockSize) : RowAt p blockSize groupIds j row :=
  (getCachedBlock_stored hrow).imp fun g _ hb =>
    ⟨⟨hash, g⟩, (hp.mem_stored_iff _ _).1 hb, rfl, d, hd, hlo, hhi⟩

omit [DecidableEq H] in
/-- A null block without keys is in no cached row. -/
lemma nullBlock_not_mem_cachedRow (hp : p.IndexInv) (hnull : p.keysOf p.nullBlock = [])
    (hrow : p.getCachedBlock hash groupIds = some row) : p.nullBlock ∉ row := by
  intro hmem
  obtain ⟨key, hkey⟩ := exists_stored_of_mem_row hrow hmem
  exact List.ne_nil_of_mem ((hp.mem_stored_iff _ _).1 hkey) hnull

/-- A row cached under the hash of block `j` is at `j`. -/
lemma rowAt_of_hashesAt (hp : p.IndexInv) {j : ℕ} (hb : 0 < blockSize)
    (hhashes : HashesAt p.hasher blockSize hashes)
    (hj : hashes[j]? = some hash) (hrow : p.getCachedBlock hash groupIds = some row) :
    RowAt p blockSize groupIds j row := by
  obtain ⟨d, hd, heq⟩ := hhashes j hash hj
  refine rowAt_of_getCachedBlock hp hrow hd ?_ heq.le
  rw [heq, add_mul]
  omega

omit [DecidableEq H] in
/-- Blocks whose hashes were looked up consist of hash units. -/
lemma dvd_of_resolveBlockHashes {hashBlockSize : ℕ}
    (h : resolveBlockHashes hashes hashBlockSize blockSize = .ok resolved) :
    hashBlockSize ∣ blockSize := by
  unfold resolveBlockHashes at h
  split at h
  · rename_i heq
    exact dvd_of_eq heq.symm
  · split at h
    · cases h
    · rename_i hmod
      exact dvd_of_mod_eq_zero (not_not.1 hmod)

variable {alignment hitLength maxLength : ℕ} {drop : Bool} {rows : List (List ℕ)}
  {spec : KVCacheSpec} {alignmentTokens : ℕ}

omit [DecidableEq H] in
lemma fullAttentionHit_dvd {hit : List (List ℕ) × ℕ}
    (hfine : alignmentTokens < blockSize → blockSize % alignmentTokens = 0 →
      alignmentTokens = p.hasher.hashBlockSize)
    (h : p.fullAttentionHit hashes maxLength groupIds blockSize drop alignmentTokens = .ok hit) :
    p.hasher.hashBlockSize ∣ blockSize := by
  by_cases hf : alignmentTokens < blockSize ∧ blockSize % alignmentTokens = 0
  · rw [← hfine hf.1 hf.2]
    exact dvd_of_mod_eq_zero hf.2
  · obtain ⟨lookup, hlookup, -⟩ := except_bind_eq_ok.1 h
    rw [resolveLookupHashes_coarse fun _ => hf] at hlookup
    exact dvd_of_resolveBlockHashes hlookup

/-- Full attention lookups are sound, whether or not a hit may end inside a block. -/
lemma fullAttentionHit_sound (hp : p.IndexInv) (hchain : Chained p.hasher hashes)
    (hfull : spec.isFullAttention = true)
    (hfine : alignmentTokens < spec.blockSize → spec.blockSize % alignmentTokens = 0 →
      alignmentTokens = p.hasher.hashBlockSize)
    (h : p.fullAttentionHit hashes maxLength groupIds spec.blockSize drop alignmentTokens =
      .ok (rows, hitLength)) :
    LookupSound p spec groupIds alignmentTokens maxLength drop rows hitLength := by
  have hb := spec.blockSize_pos
  have hdvd := fullAttentionHit_dvd hfine h
  obtain ⟨rows', n', hhit, hserves, hshape⟩ := fullAttentionHit_serves hb hdvd hashes groupIds hfine
    maxLength drop
  rw [h, Except.ok.injEq, Prod.mk.injEq] at hhit
  obtain ⟨rfl, rfl⟩ := hhit
  refine ⟨fun j row hj => .inl ?_, mod_eq_zero_of_dvd hshape.aligned, hshape.length_eq,
    fun hnot => absurd (hnot.symm.trans hfull) Bool.false_ne_true, hshape.le_maxLength,
    fun hdrop hpos => ?_⟩
  · -- The row of the first token of block `j`.
    obtain ⟨hlt, -⟩ := List.getElem?_eq_some_iff.1 hj
    have hfirst : j * spec.blockSize < hitLength := by
      rw [hshape.length_eq] at hlt
      exact not_le.1 fun hle => absurd ((cdiv_le_iff hb).2 hle) (not_le.2 hlt)
    obtain ⟨row', hrow', idx, ⟨hash, hget, hcached⟩, hblock, hbehind⟩ := hserves _ hfirst
    rw [Nat.mul_div_cancel _ hb] at hrow' hblock
    rw [hj, Option.some.injEq] at hrow'
    subst hrow'
    refine rowAt_of_getCachedBlock hp hcached (hchain idx hash hget) hbehind ?_
    obtain ⟨k, hk⟩ := hdvd
    have hend := (div_lt_iff_lt_mul hb).1 (lt_succ_of_le hblock.le)
    rw [hk, Nat.mul_comm p.hasher.hashBlockSize, ← Nat.mul_assoc] at hend ⊢
    exact Nat.mul_le_mul_right _ (Nat.lt_of_mul_lt_mul_right hend)
  · have := hshape.le_of_drop hpos
    rwa [if_pos hdrop] at this

/-- Lookups that return null rows and then cached rows are sound. -/
lemma WindowHit.sound (hp : p.IndexInv) (hchain : Chained p.hasher hashes)
    (hfull : spec.isFullAttention = false) {window lo : ℕ} {lookup : List H}
    (hlookup : resolveLookupHashes hashes p.hasher.hashBlockSize spec.blockSize alignment false =
      .ok lookup)
    (hrows : WindowHit p groupIds lookup spec.blockSize window alignment drop
      (maxLength / spec.blockSize) lo rows) :
    LookupSound p spec groupIds alignment maxLength drop rows (rows.length * spec.blockSize) := by
  have hb := spec.blockSize_pos
  have hhashes := hchain.resolve hb (resolveLookupHashes_eq_ok hlookup)
  have hmul := div_mul_le_self maxLength spec.blockSize
  refine ⟨fun j row hj => ?_, hrows.aligned, (cdiv_mul_self hb _).symm,
    fun _ => mul_mod_left _ _, (mul_le_mul_right _ hrows.length_le).trans hmul,
    fun hdrop hpos => ?_⟩
  · rcases lt_or_ge j lo with hlt | hge
    · exact .inr ⟨hfull, hrows.null j row hlt hj⟩
    · obtain ⟨hash, hget, hrow⟩ := hrows.cached j row hge hj
      exact .inl (rowAt_of_hashesAt hp hb hhashes hget hrow)
  · have hlt := hrows.length_lt hdrop (Nat.pos_of_mul_pos_right hpos)
    calc _ ≤ rows.length * spec.blockSize + spec.blockSize := by omega
      _ = (rows.length + 1) * spec.blockSize := by rw [Nat.add_mul, Nat.one_mul]
      _ ≤ maxLength := (Nat.mul_le_mul_right _ hlt).trans hmul

lemma findLongestCacheHit_sound (hp : p.IndexInv) (hchain : Chained p.hasher hashes)
    (hfine : alignment < spec.blockSize → spec.blockSize % alignment = 0 →
      alignment = p.hasher.hashBlockSize)
    (h : p.findLongestCacheHit hashes maxLength groupIds spec drop alignment =
      .ok (rows, hitLength)) :
    LookupSound p spec groupIds alignment maxLength drop rows hitLength := by
  unfold findLongestCacheHit at h
  have hscratch : ∀ {rows : List (List ℕ)} {hitLength : ℕ}, rows = [] → hitLength = 0 →
      LookupSound p spec groupIds alignment maxLength drop rows hitLength := by
    rintro _ _ rfl rfl
    refine ⟨by simp, zero_mod _, ?_, fun _ => zero_mod _, zero_le _,
      fun _ hpos => absurd hpos (lt_irrefl 0)⟩
    have := cdiv_mul_self spec.blockSize_pos 0
    rw [zero_mul] at this
    exact this.symm
  cases hkind : spec.kind with
  | fullAttention =>
    rw [hkind] at h
    exact fullAttentionHit_sound hp hchain (by simp [KVCacheSpec.isFullAttention, hkind]) hfine h
  | slidingWindow window extra =>
    rw [hkind] at h
    obtain ⟨rfl, lookup, lo, hlookup, hrows⟩ := slidingWindowHit_windowHit spec.blockSize_pos h
    exact hrows.sound hp hchain (by simp [KVCacheSpec.isFullAttention, hkind]) hlookup
  | chunkedLocalAttention chunk =>
    rw [hkind] at h
    obtain ⟨rfl, lookup, hlookup, hrows, -⟩ := chunkedLocalHit_windowHit spec.blockSize_pos h
    exact hrows.sound hp hchain (by simp [KVCacheSpec.isFullAttention, hkind]) hlookup
  | circularBuffer | kpoolTail =>
    rw [hkind] at h
    cases h
    exact hscratch rfl rfl

end BlockPool

end Lvllm
