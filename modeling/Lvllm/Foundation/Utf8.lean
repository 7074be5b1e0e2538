import Mathlib.Data.List.TakeWhile
import Lvllm.Foundation.Search

/-!
# UTF-8

Texts are lists of bytes.  `utf8Step` reads one character, or the longest start of one that is not continued;
`lossy` replaces every such start by U+FFFD.  `Utf8Text` are the texts made of whole characters.  A piece
cut off the end of a text in the middle of a character shows: `utf8Text_or_replacement`.
-/

namespace Lvllm

open List

/-- A text in UTF-8. -/
abbrev Bytes := List UInt8

/-- A byte inside a character. -/
def isContinuation (b : UInt8) : Bool := decide (128 ≤ b) && decide (b < 192)

/-- For the first byte of a longer character: how many bytes follow, and the bounds of the second. -/
def leadInfo (b : UInt8) : Option (ℕ × UInt8 × UInt8) :=
  if b < 0xC2 then none
  else if b < 0xE0 then some (1, 0x80, 0xBF)
  else if b = 0xE0 then some (2, 0xA0, 0xBF)
  else if b = 0xED then some (2, 0x80, 0x9F)
  else if b < 0xF0 then some (2, 0x80, 0xBF)
  else if b = 0xF0 then some (3, 0x90, 0xBF)
  else if b < 0xF4 then some (3, 0x80, 0xBF)
  else if b = 0xF4 then some (3, 0x80, 0x8F)
  else none

/-- Read the bytes behind the first one of a longer character, with the first one counted. -/
def utf8Tail (x : ℕ × UInt8 × UInt8) : Bytes → Bool × ℕ
  | [] => (false, 1)
  | c :: rest =>
    if x.2.1 ≤ c ∧ c ≤ x.2.2 then
      let n := ((rest.take (x.1 - 1)).takeWhile isContinuation).length
      (n == x.1 - 1, 2 + n)
    else (false, 1)

/-- Read a character: whether there is one, and how many bytes it or its start has. -/
def utf8Step : Bytes → Bool × ℕ
  | [] => (false, 0)
  | b :: rest =>
    if b < 0x80 then (true, 1) else (leadInfo b).elim (false, 1) fun x => utf8Tail x rest

/-- U+FFFD. -/
def replacement : Bytes := [0xEF, 0xBF, 0xBD]

/-- Lossy decoding with fuel. -/
def lossyFrom : ℕ → Bytes → Bytes
  | 0, _ => []
  | fuel + 1, b =>
    if b.isEmpty then []
    else (if (utf8Step b).1 then b.take (utf8Step b).2 else replacement) ++
      lossyFrom fuel (b.drop (utf8Step b).2)

/-- `String::from_utf8_lossy`. -/
def lossy (b : Bytes) : Bytes := lossyFrom b.length b

/-- A character. -/
def IsUtf8Char (c : Bytes) : Prop := utf8Step c = (true, c.length)

/-- A text of whole characters. -/
inductive Utf8Text : Bytes → Prop
  | nil : Utf8Text []
  | cons {c rest : Bytes} : IsUtf8Char c → Utf8Text rest → Utf8Text (c ++ rest)

/-- `str::floor_char_boundary`. -/
def floorCharBoundary (text : Bytes) : ℕ → ℕ
  | 0 => 0
  | i + 1 =>
    if text.length ≤ i + 1 then text.length
    else if text[i + 1]?.any isContinuation then floorCharBoundary text i else i + 1

/-- `str::is_char_boundary`. -/
def isCharBoundary (text : Bytes) (i : ℕ) : Bool :=
  i == 0 || i == text.length || text[i]?.any (fun b => !isContinuation b)

/-! ## Boundaries -/

lemma floorCharBoundary_le (text : Bytes) (i : ℕ) : floorCharBoundary text i ≤ i := by
  induction i with
  | zero => exact Nat.le_refl _
  | succ i ih =>
    unfold floorCharBoundary
    split
    · assumption
    · split <;> omega

lemma isCharBoundary_floor (text : Bytes) (i : ℕ) :
    isCharBoundary text (floorCharBoundary text i) = true := by
  induction i with
  | zero => rfl
  | succ i ih =>
    unfold floorCharBoundary
    split
    · simp [isCharBoundary]
    · split
      · exact ih
      · rename_i hlen hcont
        rw [getElem?_eq_getElem (by omega)] at hcont
        simp only [isCharBoundary, getElem?_eq_getElem (by omega : i + 1 < text.length)]
        simp_all

lemma floorCharBoundary_of_boundary {text : Bytes} {i : ℕ} (h : isCharBoundary text i = true) :
    floorCharBoundary text i = i := by
  cases i with
  | zero => rfl
  | succ i =>
    unfold floorCharBoundary
    unfold isCharBoundary at h
    split
    · rename_i hle
      by_contra hne
      rw [getElem?_eq_none hle] at h
      simp at h
      omega
    · rename_i hlt
      rw [getElem?_eq_getElem (by omega)] at h ⊢
      simp only [Option.any_some] at h ⊢
      split
      · rename_i hcont
        simp [hcont] at h
        omega
      · rfl

/-! ## Characters -/

lemma leadInfo_lead {b : UInt8} {x : ℕ × UInt8 × UInt8} (h : leadInfo b = some x) : 0xC2 ≤ b := by
  unfold leadInfo at h
  split at h
  · cases h
  · rename_i hlt
    exact UInt8.not_lt.1 hlt

lemma utf8Tail_bounds (x : ℕ × UInt8 × UInt8) (rest : Bytes) :
    1 ≤ (utf8Tail x rest).2 ∧ (utf8Tail x rest).2 ≤ rest.length + 1 := by
  cases rest with
  | nil => simp [utf8Tail]
  | cons c rest =>
    simp only [utf8Tail]
    split
    · have h1 := ( takeWhile_prefix isContinuation (l := rest.take (x.1 - 1))).length_le
      have h2 := length_take_le' (x.1 - 1) rest
      simp only [length_cons]
      omega
    · simp

variable {a b : Bytes} {n : ℕ} {rest : Bytes}

/-- A step reads at least a byte of a text that has one, and not more than there are. -/
lemma utf8Step_bounds (hne : b ≠ []) : 1 ≤ (utf8Step b).2 ∧ (utf8Step b).2 ≤ b.length := by
  cases b with
  | nil => exact absurd rfl hne
  | cons x rest =>
    simp only [utf8Step]
    split
    · simp
    · cases leadInfo x with
      | none => simp
      | some y => exact utf8Tail_bounds y rest

lemma utf8Tail_of_true {x : ℕ × UInt8 × UInt8} (h : utf8Tail x rest = (true, n + 1)) :
    (∀ r, utf8Tail x (rest.take n ++ r) = (true, n + 1)) ∧
      ∀ m < n, utf8Tail x (rest.take m) = (false, m + 1) := by
  cases rest with
  | nil => cases h
  | cons c rest =>
    simp only [utf8Tail] at h
    split at h
    · rename_i hc
      obtain ⟨hk, hn⟩ : ((rest.take (x.1 - 1)).takeWhile isContinuation).length = x.1 - 1 ∧
          2 + ((rest.take (x.1 - 1)).takeWhile isContinuation).length = n + 1 := by simpa using h
      have hpre := takeWhile_prefix isContinuation (l := rest.take (x.1 - 1))
      have hall : (rest.take (x.1 - 1)).takeWhile isContinuation = rest.take (x.1 - 1) :=
        hpre.eq_of_length_le (by rw [hk]; exact length_take_le _ _)
      have hlen : (rest.take (x.1 - 1)).length = x.1 - 1 := hall ▸ hk
      have hcont := takeWhile_eq_self_iff.1 hall
      obtain rfl : n = x.1 - 1 + 1 := by omega
      constructor
      · intro r
        have htake : (rest.take (x.1 - 1) ++ r).take (x.1 - 1) = rest.take (x.1 - 1) := by
          rw [take_append_of_le_length hlen.ge, take_take, Nat.min_self]
        simp only [take_succ_cons, cons_append, utf8Tail, if_pos hc, htake, hall, hlen,
          beq_self_eq_true, Nat.add_comm 2]
      · intro m hm
        cases m with
        | zero => rfl
        | succ m =>
          have htake : (rest.take m).take (x.1 - 1) = rest.take m := by
            rw [take_take, Nat.min_eq_right (by omega)]
          have hwhile : (rest.take m).takeWhile isContinuation = rest.take m :=
            takeWhile_eq_self_iff.2 fun y hy =>
              hcont y (take_subset_take_left rest (by omega : m ≤ x.1 - 1) hy)
          have hm' : (rest.take m).length = m := by
            rw [length_take] at hlen ⊢
            omega
          have hne : (m == x.1 - 1) = false := by simp; omega
          simp only [take_succ_cons, utf8Tail, if_pos hc, htake, hwhile, hm', hne, Nat.add_comm 2]
    · cases h

/-- What is read is a character of its own and does not depend on what follows; a start of it is no
character. -/
lemma utf8Step_of_true (h : utf8Step b = (true, n)) : (∀ r, utf8Step (b.take n ++ r) = (true, n)) ∧
      ∀ m, 0 < m → m < n → utf8Step (b.take m) = (false, m) := by
  cases b with
  | nil => cases h
  | cons x rest =>
    simp only [utf8Step] at h
    split at h
    · rename_i hx
      obtain rfl : 1 = n := congrArg Prod.snd h
      exact ⟨fun r => by simp [utf8Step, hx], fun m h0 h1 => by omega⟩
    · rename_i hx
      cases hlead : leadInfo x with
      | none => simp [hlead] at h
      | some y =>
        rw [hlead, Option.elim_some] at h
        obtain ⟨k, rfl⟩ : ∃ k, n = k + 1 := by
          have := (utf8Tail_bounds y rest).1
          rw [h] at this
          exact ⟨n - 1, by simp only at this; omega⟩
        obtain ⟨h1, h2⟩ := utf8Tail_of_true h
        refine ⟨fun r => ?_, fun m h0 hm => ?_⟩
        · simpa [utf8Step, hx, hlead] using h1 r
        · obtain ⟨m, rfl⟩ : ∃ m', m = m' + 1 := ⟨m - 1, by omega⟩
          simpa [utf8Step, hx, hlead] using h2 m (by omega)

/-- The first byte of a character is not inside one. -/
lemma not_isContinuation_of_utf8Step {x : UInt8}
    (h : utf8Step (x :: rest) = (true, n)) : isContinuation x = false := by
  simp only [utf8Step] at h
  split at h
  · rename_i hx
    simp [isContinuation, UInt8.not_le.2 hx]
  · cases hlead : leadInfo x with
    | none => simp [hlead] at h
    | some y =>
      have := leadInfo_lead hlead
      have hlt : ¬ x < 192 := UInt8.not_lt.2 (UInt8.le_trans (by decide) this)
      simp [isContinuation, hlt]

/-! ## Texts -/

lemma Utf8Text.append (ha : Utf8Text a) (hb : Utf8Text b) : Utf8Text (a ++ b) := by
  induction ha with
  | nil => exact hb
  | cons hc _ ih =>
    rw [append_assoc]
    exact .cons hc ih

lemma IsUtf8Char.step_append {c : Bytes} (hc : IsUtf8Char c) (r : Bytes) :
    utf8Step (c ++ r) = (true, c.length) := by
  have := (utf8Step_of_true hc).1 r
  rwa [take_length] at this

lemma IsUtf8Char.ne_nil {c : Bytes} (hc : IsUtf8Char c) : c ≠ [] := by
  rintro rfl
  cases hc

lemma Utf8Text.head (h : Utf8Text b) (hne : b ≠ []) :
    ∃ n rest, utf8Step b = (true, n) ∧ b = b.take n ++ rest ∧ Utf8Text rest ∧
      0 < n ∧ n ≤ b.length := by
  cases h with
  | nil => exact absurd rfl hne
  | @cons c rest hc hrest =>
    exact ⟨c.length, rest, hc.step_append rest, by simp, hrest,
      length_pos_of_ne_nil hc.ne_nil, by simp⟩

lemma isUtf8Char_take (h : utf8Step b = (true, n)) (hn : n ≤ b.length) : IsUtf8Char (b.take n) := by
  have := (utf8Step_of_true h).1 []
  rw [append_nil] at this
  rw [IsUtf8Char, length_take, Nat.min_eq_left hn]
  exact this

/-- What follows a text in a text is one. -/
lemma Utf8Text.of_append (ha : Utf8Text a) (h : Utf8Text (a ++ b)) : Utf8Text b := by
  induction ha with
  | nil => exact h
  | @cons c rest hc _ ih =>
    rw [append_assoc] at h
    obtain ⟨n, r, hstep, hsplit, hr, -, -⟩ := h.head (append_ne_nil_of_left_ne_nil hc.ne_nil _)
    have hn : n = c.length := congrArg Prod.snd (hstep.symm.trans (hc.step_append _))
    rw [hn, take_left] at hsplit
    exact ih (append_cancel_left hsplit ▸ hr)

lemma Utf8Text.isCharBoundary_append (hb : Utf8Text b) :
    isCharBoundary (a ++ b) a.length = true := by
  cases b with
  | nil => simp [isCharBoundary]
  | cons x b =>
    obtain ⟨n, -, hstep, -⟩ := hb.head (by simp)
    simp [isCharBoundary, not_isContinuation_of_utf8Step hstep]

/-! ## Lossy decoding -/

lemma length_drop_utf8Step_le (x : UInt8) (b : Bytes) :
    ((x :: b).drop (utf8Step (x :: b)).2).length ≤ b.length := by
  have hb := utf8Step_bounds (b := x :: b) (by simp)
  rw [length_drop, length_cons] at *
  omega

lemma lossyFrom_of_le {fuel : ℕ} (h : b.length ≤ fuel) : lossyFrom fuel b = lossy b := by
  induction fuel using Nat.strongRecOn generalizing b with
  | _ fuel ih =>
    cases b with
    | nil => cases fuel <;> rfl
    | cons x b =>
      obtain ⟨fuel, rfl⟩ : ∃ f, fuel = f + 1 := ⟨fuel - 1, by simp at h; omega⟩
      have hlen := length_drop_utf8Step_le x b
      rw [lossy, length_cons, lossyFrom, lossyFrom]
      rw [length_cons] at h
      rw [ih fuel (by omega) (by omega), ih b.length (by omega) hlen]

lemma lossy_nil : lossy [] = [] := rfl

lemma lossy_step (hne : b ≠ []) :
    lossy b = (if (utf8Step b).1 then b.take (utf8Step b).2 else replacement) ++
      lossy (b.drop (utf8Step b).2) := by
  cases b with
  | nil => exact absurd rfl hne
  | cons x b =>
    rw [lossy, length_cons, lossyFrom, lossyFrom_of_le (length_drop_utf8Step_le x b)]
    simp

lemma Utf8Text.lossy_append (ha : Utf8Text a) (b : Bytes) : lossy (a ++ b) = a ++ lossy b := by
  induction ha with
  | nil => rfl
  | @cons c rest hc _ ih =>
    have hne : c ++ (rest ++ b) ≠ [] := append_ne_nil_of_left_ne_nil hc.ne_nil _
    rw [append_assoc, lossy_step hne, hc.step_append]
    simp only [if_true, take_left, drop_left]
    rw [ih, append_assoc]

lemma Utf8Text.lossy_eq (ha : Utf8Text a) : lossy a = a := by
  have := ha.lossy_append []
  rwa [append_nil, lossy_nil, append_nil] at this

/-- The beginning of a text consists of whole characters, or its decoding ends with U+FFFD. -/
lemma utf8Text_or_replacement (h : Utf8Text (a ++ b)) : Utf8Text a ∨ replacement <:+ lossy a := by
  induction hn : a.length using Nat.strongRecOn generalizing a with
  | _ l ih =>
    rcases eq_or_ne a [] with rfl | hne
    · exact .inl .nil
    · obtain ⟨n, r, hstep, hsplit, hr, hpos, hle⟩ := h.head (by simp [hne])
      have hone := isUtf8Char_take hstep hle
      rcases Nat.lt_or_ge a.length n with hlt | hge
      · -- the character is cut
        have hcut := (utf8Step_of_true hstep).2 a.length (length_pos_iff.2 hne) hlt
        rw [take_left] at hcut
        right
        rw [lossy_step hne, hcut]
        simp [lossy_nil]
      · have htake : (a ++ b).take n = a.take n := take_append_of_le_length hge
        rw [htake] at hsplit hone
        have hrest : Utf8Text (a.drop n ++ b) := by
          rw [← drop_append_of_le_length hge, hsplit, drop_left' (by simp; omega)]
          exact hr
        have hchar : Utf8Text (a.take n) := by
          have := Utf8Text.cons hone .nil
          rwa [append_nil] at this
        rcases ih _ (by rw [length_drop]; omega) hrest rfl with h1 | h1
        · left
          rw [← take_append_drop n a]
          exact hchar.append h1
        · right
          rw [← take_append_drop n a, hchar.lossy_append]
          exact h1.trans (suffix_append _ _)

/-- Bytes whose decoding has no U+FFFD are a text. -/
lemma utf8Text_of_clean (h : ¬ replacement <:+: lossy b) : Utf8Text b := by
  induction hn : b.length using Nat.strongRecOn generalizing b with
  | _ l ih =>
    rcases eq_or_ne b [] with rfl | hne
    · exact .nil
    · have hb := utf8Step_bounds hne
      rw [lossy_step hne] at h
      rcases hstep : utf8Step b with ⟨_ | _, n⟩
      · rw [hstep] at h
        exact absurd (prefix_append _ _).isInfix h
      · rw [hstep] at h hb
        have hrest := ih _ (by rw [length_drop]; omega)
          (fun hin => h (hin.trans (suffix_append _ _).isInfix)) rfl
        have := Utf8Text.cons (isUtf8Char_take hstep hb.2) hrest
        rwa [take_append_drop] at this

end Lvllm
