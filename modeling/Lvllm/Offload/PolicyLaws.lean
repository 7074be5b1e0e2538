import Lvllm.Offload.CachePolicy

/-!
# What the offload pool relies on

`CachePolicy.Ok` says that the books of a policy agree, and `contents` lists its blocks.  Each
operation of a policy keeps `Ok`, does not raise, and is described by what it does to `contents` up to
order: one block is added, taken out or written to, `touch` changes nothing, and `evict` takes out
idle blocks that are not protected.  The manager is verified from these facts for both policies at
once.
-/

namespace Lvllm

open List Dict LRUCachePolicy

variable {Key : Type} [DecidableEq Key]

/-! ## Least recent use: what the operations do -/

namespace LRUCachePolicy

/-- The idle list has the idle blocks. -/
def Ok (p : LRUCachePolicy Key) : Prop :=
  ∀ key, (p.evictableBlocks.get? key).isSome ↔
    ∃ block, p.blocks.get? key = some block ∧ block.refCnt = 0

/-- The books agree when they agree at one key and nothing else changes. -/
lemma Ok.of_key {p p' : LRUCachePolicy Key} (h : p.Ok) (key : Key) (hlist : ∀ key', key' ≠ key →
      p'.evictableBlocks.get? key' = p.evictableBlocks.get? key')
    (hblocks : ∀ key', key' ≠ key → p'.blocks.get? key' = p.blocks.get? key')
    (hkey : (p'.evictableBlocks.get? key).isSome ↔
      ∃ block, p'.blocks.get? key = some block ∧ block.refCnt = 0) : p'.Ok := by
  intro key'
  by_cases heq : key' = key
  · rw [heq]
    exact hkey
  · rw [hlist key' heq, hblocks key' heq]
    exact h key'

variable {p : LRUCachePolicy Key} (h : p.Ok) {block : BlockStatus}

include h

lemma Ok.evictable_of_idle {key : Key}
    (hget : p.blocks.get? key = some block) (hzero : block.refCnt = 0) :
    p.evictableBlocks.get? key = some () := by
  obtain ⟨u, hu⟩ := Option.isSome_iff_exists.1 ((h key).2 ⟨block, hget, hzero⟩)
  exact hu

/-- A block in use is not in the idle list. -/
lemma Ok.evictable_of_busy {key : Key}
    (hget : p.blocks.get? key = some block) (hbusy : block.refCnt ≠ 0) :
    p.evictableBlocks.get? key = none := by
  cases hlist : p.evictableBlocks.get? key with
  | none => rfl
  | some u =>
    obtain ⟨block', hget', hzero⟩ := (h key).1 (by rw [hlist]; rfl)
    rw [hget] at hget'
    cases hget'
    exact absurd hzero hbusy

lemma Ok.touch (keys : List Key) : (p.touch keys).Ok ∧ (p.touch keys).blocks = p.blocks := by
  unfold LRUCachePolicy.touch
  generalize keys.reverse = keys
  induction keys generalizing p with
  | nil => exact ⟨h, rfl⟩
  | cons key keys ih =>
    rw [foldl_cons]
    split
    · have hmoved : LRUCachePolicy.Ok
          { p with evictableBlocks := p.evictableBlocks.moveToEnd key } := by
        intro key'
        rw [get?_moveToEnd]
        exact h key'
      exact ih hmoved
    · exact ih h

/-- The scan finds idle blocks that are not protected, each at most once. -/
lemma Ok.candidates (protectedKeys : List Key) (n : ℕ) (keys : List Key) (hnodup : keys.Nodup)
    (hkeys : ∀ key ∈ keys, (p.evictableBlocks.get? key).isSome) :
    ∃ found, p.candidates protectedKeys n keys = .ok found ∧ found.length ≤ n ∧
      (found.map Prod.fst).Nodup ∧ ∀ e ∈ found, e.1 ∈ keys ∧ p.blocks.get? e.1 = some e.2 ∧
        e.2.refCnt = 0 ∧ e.1 ∉ protectedKeys := by
  induction keys generalizing n with
  | nil =>
    cases n with
    | zero => exact ⟨[], rfl, le_rfl, nodup_nil, nofun⟩
    | succ n =>
      exact ⟨[], rfl, Nat.zero_le _, nodup_nil, nofun⟩
  | cons key keys ih =>
    cases n with
    | zero => exact ⟨[], rfl, le_rfl, nodup_nil, nofun⟩
    | succ n =>
      obtain ⟨hnotin, hrest⟩ := nodup_cons.1 hnodup
      have hkeys' := fun key' hmem => hkeys key' (mem_cons_of_mem key hmem)
      unfold LRUCachePolicy.candidates
      by_cases hprotected : key ∈ protectedKeys
      · rw [if_pos hprotected]
        obtain ⟨found, heq, hlen, hfound, hall⟩ := ih (n + 1) hrest hkeys'
        refine ⟨found, heq, hlen, hfound, ?_⟩
        intro e he
        obtain ⟨hmem, hfacts⟩ := hall e he
        exact ⟨mem_cons_of_mem _ hmem, hfacts⟩
      · rw [if_neg hprotected]
        obtain ⟨block, hget, hzero⟩ := (h key).1 (hkeys key mem_cons_self)
        obtain ⟨found, heq, hlen, hfound, hall⟩ := ih n hrest hkeys'
        rw [hget]
        dsimp only
        rw [if_pos hzero, heq]
        refine ⟨(key, block) :: found, rfl, Nat.succ_le_succ hlen, ?_, ?_⟩
        · rw [map_cons, nodup_cons]
          refine ⟨?_, hfound⟩
          intro hmem
          obtain ⟨e, he, hfst⟩ := mem_map.1 hmem
          have hin := (hall e he).1
          rw [hfst] at hin
          exact hnotin hin
        · intro e he
          rcases mem_cons.1 he with rfl | he
          · exact ⟨mem_cons_self, hget, hzero, hprotected⟩
          · obtain ⟨hmem, hfacts⟩ := hall e he
            exact ⟨mem_cons_of_mem _ hmem, hfacts⟩

/-- Idle blocks with different keys can be deleted. -/
lemma Ok.delAll (found : List (Key × BlockStatus)) (hnodup : (found.map Prod.fst).Nodup)
    (hfound : ∀ e ∈ found, p.blocks.get? e.1 = some e.2 ∧ e.2.refCnt = 0) :
    ∃ p', delAll found p = .ok p' ∧ p'.Ok ∧ p.blocks.entries.Perm (found ++ p'.blocks.entries) := by
  induction found generalizing p with
  | nil => exact ⟨p, rfl, h, .refl _⟩
  | cons e found ih =>
    obtain ⟨key, block⟩ := e
    obtain ⟨hnotin, hrest⟩ := nodup_cons.1 hnodup
    obtain ⟨hget, hzero⟩ := hfound (key, block) mem_cons_self
    have hlist := h.evictable_of_idle hget hzero
    have hok : LRUCachePolicy.Ok { p with
        evictableBlocks := p.evictableBlocks.erase key, blocks := p.blocks.erase key } := by
      refine h.of_key key (fun _ hne => get?_erase_ne _ hne) (fun _ hne => get?_erase_ne _ hne) ?_
      simp
    obtain ⟨p', heq, hok', hperm⟩ := ih hok hrest fun e he => by
      have hne : e.1 ≠ key := fun hsame => hnotin (mem_map.2 ⟨e, he, hsame⟩)
      rw [get?_erase_ne _ hne]
      exact hfound e (mem_cons_of_mem _ he)
    refine ⟨p', ?_, hok', ?_⟩
    · rw [delAll, del_of_get? hlist, del_of_get? hget]
      exact heq
    · exact (entries_perm_cons_erase hget).trans (hperm.cons _)

end LRUCachePolicy

/-! ## The adaptive policy: what the operations do -/

namespace ARCCachePolicy

/-- The two lists have different keys. -/
def Ok (p : ARCCachePolicy Key) : Prop := ∀ key, p.t1.get? key ≠ none → p.t2.get? key = none

/-- The blocks of the two lists. -/
def contents (p : ARCCachePolicy Key) : List (Key × BlockStatus) := p.t1.entries ++ p.t2.entries

/-- The lists stay apart when they get no new keys. -/
lemma Ok.mono {p p' : ARCCachePolicy Key} (h : p.Ok)
    (h1 : ∀ key, p.t1.get? key = none → p'.t1.get? key = none)
    (h2 : ∀ key, p.t2.get? key = none → p'.t2.get? key = none) : p'.Ok :=
  fun key hkey => h2 key (h key fun hnone => hkey (h1 key hnone))

variable {p : ARCCachePolicy Key} {protectedKeys : List Key}
  {found : List ((Key × BlockStatus) × Bool)}

/-- A used block moves to the second list or to the end of its own. -/
lemma Ok.touchOne (h : p.Ok) (key : Key) :
    (p.touchOne key).Ok ∧ (p.touchOne key).contents.Perm p.contents := by
  unfold ARCCachePolicy.touchOne
  cases h1 : p.t1.get? key with
  | some block =>
    dsimp only
    split
    · exact ⟨h.mono (fun _ hnone => (get?_moveToEnd ..).trans hnone) fun _ => id,
        (entries_moveToEnd_perm _ _).append_right _⟩
    · have h2 : p.t2.get? key = none := h key (by rw [h1]; exact Option.some_ne_none _)
      constructor
      · intro key'
        by_cases heq : key' = key
        · subst heq
          rw [get?_erase_self]
          exact fun hne => absurd rfl hne
        · rw [get?_erase_ne _ heq, get?_set_ne _ heq]
          exact h key'
      · show ((p.t1.erase key).entries ++ (p.t2.set key block).entries).Perm
          (p.t1.entries ++ p.t2.entries)
        rw [entries_set_of_get?_eq_none h2, ← append_assoc]
        exact (perm_append_singleton _ _).trans
          ((entries_perm_cons_erase h1).symm.append_right p.t2.entries)
  | none =>
    dsimp only
    split
    · exact ⟨h.mono (fun _ => id) fun _ hnone => (get?_moveToEnd ..).trans hnone,
        (entries_moveToEnd_perm _ _).append_left _⟩
    · split
      · exact ⟨h, .refl _⟩
      · split
        · exact ⟨h, .refl _⟩
        · exact ⟨h, .refl _⟩

lemma Ok.touch (h : p.Ok) (keys : List Key) :
    (p.touch keys).Ok ∧ (p.touch keys).contents.Perm p.contents := by
  unfold ARCCachePolicy.touch
  generalize keys.reverse = keys
  induction keys generalizing p with
  | nil => exact ⟨h, .refl _⟩
  | cons key keys ih =>
    obtain ⟨hok, hperm⟩ := h.touchOne key
    obtain ⟨hok', hperm'⟩ := ih hok
    exact ⟨hok', hperm'.trans hperm⟩

/-- What an iterator yields comes from what was left of it. -/
lemma nextCandidate_spec {es rest : List (Key × BlockStatus)} {found : Option (Key × BlockStatus)}
    (h : nextCandidate protectedKeys es = (found, rest)) : (found.toList ++ rest).Sublist es ∧
      ∀ e ∈ found, e.2.refCnt = 0 ∧ e.1 ∉ protectedKeys := by
  induction es with
  | nil =>
    cases h
    exact ⟨.refl _, nofun⟩
  | cons e' es ih =>
    unfold nextCandidate at h
    split at h
    · rename_i hidle
      cases h
      exact ⟨.refl _, fun e he => Option.mem_some.1 he ▸ hidle⟩
    · obtain ⟨hsub, hfacts⟩ := ih h
      exact ⟨hsub.cons _, hfacts⟩

/-- The entries that a selection takes from one of the lists. -/
def takenFrom (side : Bool) (found : List ((Key × BlockStatus) × Bool)) : List (Key × BlockStatus) :=
  (found.filter (·.2 = side)).map Prod.fst

/-- A selection takes idle blocks that are not protected, each list in its order. -/
lemma select_spec {target : ℤ} {n : ℕ} {t1 t2 : List (Key × BlockStatus)} {size : ℤ}
    (h : select protectedKeys target n t1 t2 size = some found) :
    found.length = n ∧ (takenFrom true found).Sublist t1 ∧ (takenFrom false found).Sublist t2 ∧
      ∀ e ∈ found, e.1.2.refCnt = 0 ∧ e.1.1 ∉ protectedKeys := by
  induction n generalizing t1 t2 size found with
  | zero =>
    cases h
    exact ⟨rfl, nil_sublist _, nil_sublist _, nofun⟩
  | succ n ih =>
    rw [select] at h
    -- The first list is asked only while it is not below its target.
    obtain ⟨entry, t1', hnext⟩ : ∃ entry t1',
        (if target ≤ size then nextCandidate protectedKeys t1 else (none, t1)) = (entry, t1') :=
      ⟨_, _, rfl⟩
    rw [hnext] at h
    cases entry with
    | some entry =>
      have hcand : nextCandidate protectedKeys t1 = (some entry, t1') := by
        split at hnext
        · exact hnext
        · cases hnext
      obtain ⟨hsub, hidle⟩ := nextCandidate_spec hcand
      obtain ⟨more, hmore, hfound⟩ := Option.bind_eq_some_iff.1 h
      cases hfound
      obtain ⟨hlen, h1, h2, hall⟩ := ih hmore
      refine ⟨congrArg Nat.succ hlen, (h1.cons_cons entry).trans hsub, h2, ?_⟩
      intro e he
      rcases mem_cons.1 he with rfl | he
      · exact hidle _ rfl
      · exact hall e he
    | none =>
      have hleft : t1'.Sublist t1 := by
        split at hnext
        · exact (nextCandidate_spec hnext).1
        · cases hnext
          exact .refl _
      obtain ⟨entry, t2', hnext2⟩ : ∃ entry t2',
          nextCandidate protectedKeys t2 = (entry, t2') := ⟨_, _, rfl⟩
      rw [hnext2] at h
      cases entry with
      | none => cases h
      | some entry =>
        obtain ⟨hsub, hidle⟩ := nextCandidate_spec hnext2
        obtain ⟨more, hmore, hfound⟩ := Option.bind_eq_some_iff.1 h
        cases hfound
        obtain ⟨hlen, h1, h2, hall⟩ := ih hmore
        refine ⟨congrArg Nat.succ hlen, h1.trans hleft, (h2.cons_cons entry).trans hsub, ?_⟩
        intro e he
        rcases mem_cons.1 he with rfl | he
        · exact hidle _ rfl
        · exact hall e he

omit [DecidableEq Key] in
lemma perm_takenFrom (found : List ((Key × BlockStatus) × Bool)) :
    (takenFrom true found ++ takenFrom false found).Perm (found.map Prod.fst) := by
  have hfilter : found.filter (·.2 = false) = found.filter fun e => !decide (e.2 = true) := by
    refine filter_congr fun e _ => ?_
    cases e.2 <;> rfl
  rw [takenFrom, takenFrom, ← map_append, hfilter]
  exact (filter_append_perm _ _).map _

lemma Ok.nodup_keys (h : p.Ok) : (p.contents.map Prod.fst).Nodup := by
  rw [contents, map_append]
  refine nodup_append.2 ⟨p.t1.nodup, p.t2.nodup, ?_⟩
  rintro key h1 _ h2 rfl
  have hin1 : p.t1.get? key ≠ none := fun hnone => get?_eq_none.1 hnone h1
  exact get?_eq_none.1 (h key hin1) h2

/-- Blocks with different keys can be deleted from the lists that they stand in. -/
lemma Ok.delAll (h : p.Ok) (found : List ((Key × BlockStatus) × Bool))
    (hnodup : (found.map fun e => e.1.1).Nodup)
    (h1 : ∀ e ∈ takenFrom true found, p.t1.get? e.1 = some e.2)
    (h2 : ∀ e ∈ takenFrom false found, p.t2.get? e.1 = some e.2) :
    ∃ p', delAll found p = .ok p' ∧ p'.Ok ∧
      p.contents.Perm (found.map Prod.fst ++ p'.contents) := by
  induction found generalizing p with
  | nil => exact ⟨p, rfl, h, .refl _⟩
  | cons e found ih =>
    obtain ⟨⟨key, block⟩, side⟩ := e
    obtain ⟨hnotin, hrest⟩ := nodup_cons.1 hnodup
    have hne : ∀ side', ∀ e ∈ takenFrom side' found, e.1 ≠ key := by
      intro side' e he hsame
      obtain ⟨e', he', hfst⟩ := mem_map.1 he
      refine hnotin (mem_map.2 ⟨e', (mem_filter.1 he').1, ?_⟩)
      rw [hfst]
      exact hsame
    cases side with
    | true =>
      have hget : p.t1.get? key = some block := h1 (key, block) mem_cons_self
      have hok : ARCCachePolicy.Ok { p with t1 := p.t1.erase key, b1 := p.b1.set key () } :=
        h.mono (fun _ => get?_erase_eq_none) fun _ => id
      obtain ⟨p', heq, hok', hperm⟩ := ih hok hrest
        (fun e he => (get?_erase_ne _ (hne true e he)).trans (h1 e (mem_cons_of_mem _ he)))
        h2
      refine ⟨p', ?_, hok', ?_⟩
      · rw [ARCCachePolicy.delAll, del_of_get? hget]
        exact heq
      · exact ((entries_perm_cons_erase hget).append_right _).trans (hperm.cons _)
    | false =>
      have hget : p.t2.get? key = some block := h2 (key, block) mem_cons_self
      have hok : ARCCachePolicy.Ok { p with t2 := p.t2.erase key, b2 := p.b2.set key () } :=
        h.mono (fun _ => id) fun _ => get?_erase_eq_none
      obtain ⟨p', heq, hok', hperm⟩ := ih hok hrest h1
        (fun e he => (get?_erase_ne _ (hne false e he)).trans (h2 e (mem_cons_of_mem _ he)))
      refine ⟨p', ?_, hok', ?_⟩
      · rw [ARCCachePolicy.delAll, del_of_get? hget]
        exact heq
      · refine ((entries_perm_cons_erase hget).append_left _).trans ?_
        exact perm_middle.trans (hperm.cons _)

/-- A selection has different keys that stand in their lists. -/
lemma Ok.delAll_select (h : p.Ok) {n : ℕ} {target size : ℤ}
    (hselect : select protectedKeys target n p.t1.entries p.t2.entries size = some found) :
    ∃ p', ARCCachePolicy.delAll found p = .ok p' ∧ p'.Ok ∧
      p.contents.Perm (found.map Prod.fst ++ p'.contents) := by
  obtain ⟨-, h1, h2, -⟩ := select_spec hselect
  refine h.delAll found ?_ ?_ ?_
  · have hsub : (takenFrom true found ++ takenFrom false found).Sublist p.contents := h1.append h2
    have hnodup := h.nodup_keys.sublist (hsub.map Prod.fst)
    have hperm := (perm_takenFrom found).map Prod.fst
    rw [map_map] at hperm
    exact hperm.nodup_iff.1 hnodup
  · exact fun e he => get?_eq_some.2 (h1.subset he)
  · exact fun e he => get?_eq_some.2 (h2.subset he)

end ARCCachePolicy

/-! ## What the manager relies on -/

namespace CachePolicy

/-- The books of a policy agree. -/
def Ok : CachePolicy Key → Prop
  | .lru p => p.Ok
  | .arc p => p.Ok

variable {p : CachePolicy Key} {key : Key} {block : BlockStatus}

/-- One block is replaced and the others stay. -/
def Swapped (p p' : CachePolicy Key) (key : Key) (block block' : BlockStatus) : Prop :=
  ∃ rest, p.contents.Perm ((key, block) :: rest) ∧ p'.contents.Perm ((key, block') :: rest)

lemma ok_ofName (name : CachePolicyName) (cacheCapacity : ℕ) (round : ℚ → ℚ) :
    (ofName name cacheCapacity round : CachePolicy Key).Ok ∧
      (ofName name cacheCapacity round : CachePolicy Key).contents = [] := by
  cases name with
  | lru =>
    refine ⟨?_, rfl⟩
    intro key
    simp [init]
  | arc =>
    refine ⟨?_, rfl⟩
    intro key _
    rfl

lemma Ok.nodup_keys (h : p.Ok) : (p.contents.map Prod.fst).Nodup := by
  cases p with
  | lru p => exact p.blocks.nodup
  | arc p => exact ARCCachePolicy.Ok.nodup_keys h

lemma Ok.get_eq_some (h : p.Ok) : p.get key = some block ↔ (key, block) ∈ p.contents := by
  cases p with
  | lru p => exact get?_eq_some
  | arc p =>
    show (p.t1.get? key).or (p.t2.get? key) = some block ↔ _ ∈ p.t1.entries ++ p.t2.entries
    rw [mem_append, ← get?_eq_some, ← get?_eq_some]
    cases h1 : p.t1.get? key with
    | none => simp
    | some b =>
      have h2 : p.t2.get? key = none := h key (by rw [h1]; exact Option.some_ne_none _)
      simp [h2]

/-- A new block that is not idle joins the others. -/
lemma Ok.insert (h : p.Ok) (hget : p.get key = none) (hbusy : block.refCnt ≠ 0) :
    (p.insert key block).Ok ∧ (p.insert key block).contents.Perm ((key, block) :: p.contents) := by
  cases p with
  | lru p =>
    have hblocks : p.blocks.get? key = none := hget
    constructor
    · refine LRUCachePolicy.Ok.of_key (p := p) h key ?_ ?_ ?_
      · intro key' _
        show get? (if block.refCnt = 0 then _ else p.evictableBlocks) key' = _
        rw [if_neg hbusy]
      · exact fun key' hne => get?_set_ne _ hne _
      · show Option.isSome (get? (if block.refCnt = 0 then _ else p.evictableBlocks) key) ↔
          ∃ b, (p.blocks.set key block).get? key = some b ∧ b.refCnt = 0
        rw [if_neg hbusy, h key, hblocks, get?_set_self]
        simp [hbusy]
    · show (p.blocks.set key block).entries.Perm _
      rw [entries_set_of_get?_eq_none hblocks]
      exact perm_append_singleton _ _
  | arc p =>
    obtain ⟨h1, h2⟩ := Option.or_eq_none_iff.1 hget
    constructor
    · intro key' hkey'
      by_cases heq : key' = key
      · rw [heq]
        exact h2
      · refine h key' fun hnone => hkey' ?_
        exact (get?_set_ne _ heq _).trans hnone
    · show ((p.t1.set key block).entries ++ p.t2.entries).Perm _
      rw [entries_set_of_get?_eq_none h1]
      exact (perm_append_singleton _ _).append_right p.t2.entries

lemma Ok.remove (h : p.Ok) (hget : p.get key = some block) :
    ∃ p', p.remove key = .ok p' ∧ p'.Ok ∧ p.contents.Perm ((key, block) :: p'.contents) := by
  cases p with
  | lru p =>
    have hblocks : p.blocks.get? key = some block := hget
    refine ⟨.lru { p with
      blocks := p.blocks.erase key, evictableBlocks := p.evictableBlocks.erase key }, ?_, ?_,
      entries_perm_cons_erase hblocks⟩
    · rw [CachePolicy.remove, LRUCachePolicy.remove, del_of_get? hblocks]
      rfl
    · refine LRUCachePolicy.Ok.of_key (p := p) h key (fun _ hne => get?_erase_ne _ hne)
        (fun _ hne => get?_erase_ne _ hne) ?_
      simp
  | arc p =>
    refine ⟨.arc (p.remove key), rfl, ?_⟩
    unfold ARCCachePolicy.remove
    rcases Option.or_eq_some_iff.1 hget with h1 | ⟨h1, h2⟩
    · rw [if_pos (by rw [Dict.contains, h1]; rfl)]
      exact ⟨ARCCachePolicy.Ok.mono (p := p) h (fun _ => Dict.get?_erase_eq_none) fun _ => id,
        (Dict.entries_perm_cons_erase h1).append_right p.t2.entries⟩
    · rw [if_neg (by rw [Dict.contains, h1]; exact Bool.false_ne_true)]
      exact ⟨ARCCachePolicy.Ok.mono (p := p) h (fun _ => id) fun _ => Dict.get?_erase_eq_none,
        ((Dict.entries_perm_cons_erase h2).append_left p.t1.entries).trans perm_middle⟩

/-- A write to a block changes that block. -/
lemma swapped_setRefCnt (hget : p.get key = some block) (refCnt : ℤ) :
    Swapped p (p.setRefCnt key refCnt) key block { block with refCnt := refCnt } := by
  cases p with
  | lru p =>
    have hblocks : p.blocks.get? key = some block := hget
    refine ⟨(p.blocks.erase key).entries, entries_perm_cons_erase hblocks, ?_⟩
    show (p.setRefCnt key refCnt).blocks.entries.Perm _
    rw [LRUCachePolicy.setRefCnt, hblocks]
    exact entries_set_perm _ _ _
  | arc p =>
    rcases Option.or_eq_some_iff.1 hget with h1 | ⟨h1, h2⟩
    · refine ⟨(p.t1.erase key).entries ++ p.t2.entries,
        (entries_perm_cons_erase h1).append_right _, ?_⟩
      show ((p.setRefCnt key refCnt).t1.entries ++ (p.setRefCnt key refCnt).t2.entries).Perm _
      rw [ARCCachePolicy.setRefCnt, h1]
      exact (entries_set_perm _ _ _).append_right _
    · refine ⟨p.t1.entries ++ (p.t2.erase key).entries,
        ((entries_perm_cons_erase h2).append_left _).trans perm_middle, ?_⟩
      show ((p.setRefCnt key refCnt).t1.entries ++ (p.setRefCnt key refCnt).t2.entries).Perm _
      rw [ARCCachePolicy.setRefCnt, h1, h2]
      exact ((entries_set_perm _ _ _).append_left _).trans perm_middle

/-- The keys of the lists of the adaptive policy stay when a block is written to. -/
lemma ok_setRefCnt_arc {p : ARCCachePolicy Key} (h : p.Ok) (key : Key) (refCnt : ℤ) :
    (p.setRefCnt key refCnt).Ok := by
  unfold ARCCachePolicy.setRefCnt
  cases h1 : p.t1.get? key with
  | some block => exact h.mono (fun _ => get?_set_eq_none (by simp [h1])) fun _ => id
  | none =>
    cases h2 : p.t2.get? key with
    | some block => exact h.mono (fun _ => id) fun _ => get?_set_eq_none (by simp [h2])
    | none => exact h

lemma Ok.hold (h : p.Ok) (hget : p.get key = some block) (hbusy : block.refCnt ≠ 0) {refCnt : ℤ}
    (hne : refCnt ≠ 0) : (p.setRefCnt key refCnt).Ok := by
  cases p with
  | lru p =>
    have hblocks : p.blocks.get? key = some block := hget
    show (p.setRefCnt key refCnt).Ok
    rw [LRUCachePolicy.setRefCnt, hblocks]
    refine LRUCachePolicy.Ok.of_key (p := p) h key (fun _ _ => rfl)
      (fun _ hne' => get?_set_ne _ hne' _) ?_
    rw [LRUCachePolicy.Ok.evictable_of_busy h hblocks hbusy, get?_set_self]
    simp [hne]
  | arc p => exact ok_setRefCnt_arc h key refCnt

/-- An idle block is taken into use: first it leaves the idle list, then it is written to. -/
lemma Ok.acquire (h : p.Ok) (hget : p.get key = some block) (hidle : block.refCnt = 0) :
    ∃ p', p.markNonEvictable key = .ok p' ∧ p'.get key = some block ∧
      p'.contents = p.contents ∧ ∀ refCnt, refCnt ≠ 0 → (p'.setRefCnt key refCnt).Ok := by
  cases p with
  | lru p =>
    have hblocks : p.blocks.get? key = some block := hget
    refine ⟨.lru { p with evictableBlocks := p.evictableBlocks.erase key }, ?_, hget, rfl, ?_⟩
    · rw [CachePolicy.markNonEvictable, LRUCachePolicy.markNonEvictable,
        del_of_get? (LRUCachePolicy.Ok.evictable_of_idle h hblocks hidle)]
      rfl
    · intro refCnt hne
      show (LRUCachePolicy.setRefCnt { p with evictableBlocks := p.evictableBlocks.erase key }
        key refCnt).Ok
      rw [LRUCachePolicy.setRefCnt, hblocks]
      refine LRUCachePolicy.Ok.of_key (p := p) h key (fun _ hne' => get?_erase_ne _ hne')
        (fun _ hne' => get?_set_ne _ hne' _) ?_
      simp [hne]
  | arc p => exact ⟨.arc p, rfl, hget, rfl, fun refCnt _ => ok_setRefCnt_arc h key refCnt⟩

/-- A block becomes idle: it is written to and joins the idle list. -/
lemma Ok.release (h : p.Ok) (hget : p.get key = some block) :
    ((p.setRefCnt key 0).markEvictable key).Ok ∧
      ((p.setRefCnt key 0).markEvictable key).contents = (p.setRefCnt key 0).contents := by
  cases p with
  | lru p =>
    have hblocks : p.blocks.get? key = some block := hget
    refine ⟨?_, rfl⟩
    show ((p.setRefCnt key 0).markEvictable key).Ok
    rw [LRUCachePolicy.setRefCnt, hblocks]
    refine LRUCachePolicy.Ok.of_key (p := p) h key (fun _ hne' => get?_set_ne _ hne' _)
      (fun _ hne' => get?_set_ne _ hne' _) ?_
    dsimp only [LRUCachePolicy.markEvictable]
    simp
  | arc p => exact ⟨ok_setRefCnt_arc h key 0, rfl⟩

lemma Ok.touch (h : p.Ok) (keys : List Key) :
    (p.touch keys).Ok ∧ (p.touch keys).contents.Perm p.contents := by
  cases p with
  | lru p =>
    obtain ⟨hok, hblocks⟩ := LRUCachePolicy.Ok.touch h keys
    refine ⟨hok, ?_⟩
    show (p.touch keys).blocks.entries.Perm p.blocks.entries
    rw [hblocks]
  | arc p => exact ARCCachePolicy.Ok.touch h keys

lemma ok_clear (p : CachePolicy Key) : p.clear.Ok ∧ p.clear.contents = [] := by
  cases p with
  | lru p => exact ok_ofName .lru 0 id
  | arc p => exact ok_ofName .arc 0 id

/-- `evict` takes `n` idle blocks that are not protected, or nothing; it does not raise. -/
lemma Ok.evict (h : p.Ok) (n : ℕ) (protectedKeys : List Key) :
    p.evict n protectedKeys = .ok (none, p) ∨
      ∃ found p', p.evict n protectedKeys = .ok (some found, p') ∧ p'.Ok ∧ found.length = n ∧
        p.contents.Perm (found ++ p'.contents) ∧
        ∀ e ∈ found, e.2.refCnt = 0 ∧ e.1 ∉ protectedKeys := by
  rcases Nat.eq_zero_or_pos n with rfl | hpos
  · refine .inr ⟨[], p, ?_, h, rfl, .refl _, nofun⟩
    cases p with
    | lru p => rfl
    | arc p => rfl
  · have hn : n ≠ 0 := Nat.pos_iff_ne_zero.1 hpos
    cases p with
    | lru p =>
      have hlist : ∀ key ∈ p.evictableBlocks.keys, (p.evictableBlocks.get? key).isSome :=
        fun key hmem => mem_keys_iff.1 hmem
      obtain ⟨found, heq, hle, hnodup, hall⟩ := LRUCachePolicy.Ok.candidates h protectedKeys n
        p.evictableBlocks.keys p.evictableBlocks.nodup hlist
      have hrun : p.evict n protectedKeys = if found.length < n then .ok (none, p)
          else (LRUCachePolicy.delAll found p).map fun p => (some found, p) := by
        rw [LRUCachePolicy.evict, if_neg hn, heq]
        show (if found.length < n then _ else _) = _
        split
        · rfl
        · cases delAll found p <;> rfl
      by_cases hlt : found.length < n
      · refine .inl ?_
        rw [CachePolicy.evict, hrun, if_pos hlt]
        rfl
      · obtain ⟨p', hdel, hok, hperm⟩ := LRUCachePolicy.Ok.delAll h found hnodup
          fun e he => ⟨(hall e he).2.1, (hall e he).2.2.1⟩
        refine .inr ⟨found, .lru p', ?_, hok, by omega, hperm, fun e he => (hall e he).2.2⟩
        rw [CachePolicy.evict, hrun, if_neg hlt, hdel]
        rfl
    | arc p =>
      cases hselect : ARCCachePolicy.select protectedKeys ⌊p.targetT1Size⌋ n p.t1.entries
          p.t2.entries p.t1.size with
      | none =>
        refine .inl ?_
        rw [CachePolicy.evict, ARCCachePolicy.evict, if_neg hn, hselect]
        rfl
      | some found =>
        obtain ⟨hlen, -, -, hall⟩ := ARCCachePolicy.select_spec hselect
        obtain ⟨p', hdel, hok, hperm⟩ := ARCCachePolicy.Ok.delAll_select h hselect
        refine .inr ⟨found.map Prod.fst, .arc { p' with
          b1 := p'.b1.dropFirst (p'.b1.size - p'.cacheCapacity)
          b2 := p'.b2.dropFirst (p'.b2.size - p'.cacheCapacity) }, ?_, hok, ?_, hperm, ?_⟩
        · rw [CachePolicy.evict, ARCCachePolicy.evict, if_neg hn, hselect]
          dsimp only
          rw [hdel]
          rfl
        · rw [length_map]
          exact hlen
        · intro e he
          obtain ⟨e', he', rfl⟩ := mem_map.1 he
          exact hall e' he'

end CachePolicy

end Lvllm
