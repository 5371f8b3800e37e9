import Mathlib.Data.List.Basic
import Mathlib.Data.String.Basic
import ErCanvas.Text.Encoding

/-! # Spelled texts

A spelling can be read back: the mark is in front of every half of a pair and of itself, so that a code is
spelled as no beginning of another one is. Texts without the mark are spelled as they are, and where a text
ends before a character that cannot be marked, its codes end, too.

* `codes_spelling_append`: the code that a text begins with.
* `codes_flatMap_spelling`, `flatMap_spelling_injective`: a spelling is read back, so that what differs only
  in halves is spelled differently.
* `unspelled_spelled`, `hasHalf_spelled`: texts that come in from outside, where there are no halves.
* `spelled_of_notMem`: texts that are spelled as they are.
* `hasHalf_append_cons`: halves in a text that is put together.
* `hasHalf_written`: what a stream makes of a text can be encoded. -/

namespace ErCanvas.Text

/-! ### Halves -/

variable {n : ℕ} {c : Char}

theorem isHalf_iff : isHalf n = true ↔ 0xD800 ≤ n ∧ n < 0xE000 := by
  simp only [isHalf, isFirstHalf, isSecondHalf, Bool.or_eq_true, Bool.and_eq_true, decide_eq_true_eq]
  omega

theorem toNat_lt (c : Char) : c.toNat < 0x110000 := by
  have hvalid : c.toNat.isValidChar := c.valid
  simp only [Nat.isValidChar] at hvalid
  omega

/-- A character is no half of a pair. -/
theorem isHalf_toNat (c : Char) : isHalf c.toNat = false := by
  have hvalid : c.toNat.isValidChar := c.valid
  simp only [Nat.isValidChar] at hvalid
  refine Bool.eq_false_iff.2 fun h => ?_
  have := isHalf_iff.1 h
  omega

theorem toNat_ofNat_of_lt (h : n < 0x110000) (hn : isHalf n = false) : (Char.ofNat n).toNat = n := by
  have hvalid : n.isValidChar := by
    have := mt isHalf_iff.2 (Bool.eq_false_iff.1 hn)
    simp only [Nat.isValidChar]
    omega
  rw [Char.ofNat, dif_pos hvalid]
  rfl

theorem spelling_toNat (h : c ≠ halfMark) : spelling c.toNat = [c] := by
  rw [spelling, isHalf_toNat, Char.ofNat_toNat, if_neg (by decide), if_neg h]

/-! ### Reading back -/

/-- The character behind the mark of a half. -/
theorem markedCode?_half (h : isHalf n = true) : markedCode? (Char.ofNat (n + halfShift)) = some n := by
  have hn := isHalf_iff.1 h
  have hcode : (Char.ofNat (n + halfShift)).toNat = n + halfShift := by
    refine toNat_ofNat_of_lt (by simp only [halfShift]; omega) (Bool.eq_false_iff.2 fun hhalf => ?_)
    have := isHalf_iff.1 hhalf
    simp only [halfShift] at this
    omega
  have hne : Char.ofNat (n + halfShift) ≠ halfMark := fun heq => by
    have hmark : halfMark.toNat = 0xFFFF := rfl
    rw [heq, hmark] at hcode
    simp only [halfShift] at hcode
    omega
  rw [markedCode?, if_neg hne, hcode, Nat.add_sub_cancel, if_pos h]

theorem codes_cons (h : c ≠ halfMark) (cs : List Char) : codes (c :: cs) = c.toNat :: codes cs := by
  cases cs with
  | nil => rfl
  | cons d cs => rw [codes, if_neg h]

@[simp] theorem codes_eq_nil {cs : List Char} : codes cs = [] ↔ cs = [] := by
  refine ⟨fun h => ?_, fun h => h ▸ rfl⟩
  fun_cases codes cs with
  | case1 => rfl
  | case2 | case3 | case4 | case5 => simp_all [codes]

theorem codes_marked {d : Char} (h : markedCode? d = some n) (cs : List Char) :
    codes (halfMark :: d :: cs) = n :: codes cs := by
  rw [codes, if_pos rfl, h]

/-- **A code is read back from its spelling**, whatever comes behind it. -/
theorem codes_spelling_append (h : n < 0x110000) (cs : List Char) :
    codes (spelling n ++ cs) = n :: codes cs := by
  unfold spelling
  split
  · rename_i hhalf
    exact codes_marked (markedCode?_half hhalf) cs
  · rename_i hhalf
    have hcode := toNat_ofNat_of_lt h (Bool.eq_false_iff.2 hhalf)
    split
    · rename_i hmark
      rw [hmark] at hcode
      exact hcode ▸ codes_marked rfl cs
    · rename_i hmark
      rw [List.singleton_append, codes_cons hmark, hcode]

/-- **Codes are read back from their spelling.** -/
theorem codes_flatMap_spelling {ns : List ℕ} (h : ∀ n ∈ ns, n < 0x110000) :
    codes (ns.flatMap spelling) = ns := by
  induction ns with
  | nil => rfl
  | cons n ns ih =>
    obtain ⟨hn, hns⟩ := List.forall_mem_cons.1 h
    rw [List.flatMap_cons, codes_spelling_append hn, ih hns]

/-- Different codes are spelled differently. -/
theorem flatMap_spelling_injective {ns ms : List ℕ} (hn : ∀ n ∈ ns, n < 0x110000)
    (hm : ∀ m ∈ ms, m < 0x110000) (h : ns.flatMap spelling = ms.flatMap spelling) : ns = ms := by
  rw [← codes_flatMap_spelling hn, h, codes_flatMap_spelling hm]

theorem codes_spelled (s : String) : codes (spelled s).toList = s.toList.map Char.toNat := by
  have hcodes : ∀ n ∈ s.toList.map Char.toNat, n < 0x110000 := by
    rw [List.forall_mem_map]
    exact fun c _ => toNat_lt c
  rw [spelled, String.toList_ofList, ← codes_flatMap_spelling hcodes, List.flatMap_map]

/-- **What is spelled can be unspelled.** -/
theorem unspelled_spelled (s : String) : unspelled (spelled s) = s := by
  have hchar : Char.ofNat ∘ Char.toNat = id := funext Char.ofNat_toNat
  rw [unspelled, codes_spelled, List.map_map, hchar, List.map_id, String.ofList_toList]

theorem any_isHalf_toNat (cs : List Char) : (cs.map Char.toNat).any isHalf = false := by
  rw [List.any_map, List.any_eq_false]
  intro c _
  simp [isHalf_toNat]

/-- Texts that come in from outside have no halves. -/
theorem hasHalf_spelled (s : String) : hasHalf (spelled s) = false := by
  rw [hasHalf, codes_spelled, any_isHalf_toNat]

/-! ### Texts without the mark -/

theorem flatMap_spelling_toNat {cs : List Char} (h : halfMark ∉ cs) :
    cs.flatMap (fun c => spelling c.toNat) = cs := by
  induction cs with
  | nil => rfl
  | cons c cs ih =>
    rw [List.mem_cons, not_or] at h
    rw [List.flatMap_cons, spelling_toNat (Ne.symm h.1), ih h.2, List.singleton_append]

/-- **Texts without the mark are spelled as they are.** -/
theorem spelled_of_notMem {s : String} (h : halfMark ∉ s.toList) : spelled s = s := by
  rw [spelled, flatMap_spelling_toNat h, String.ofList_toList]

theorem codes_append {cs : List Char} (h : halfMark ∉ cs) (ds : List Char) :
    codes (cs ++ ds) = cs.map Char.toNat ++ codes ds := by
  induction cs with
  | nil => rfl
  | cons c cs ih =>
    rw [List.mem_cons, not_or] at h
    rw [List.cons_append, codes_cons (Ne.symm h.1), ih h.2, List.map_cons, List.cons_append]

/-- A text without the mark has no halves. -/
theorem hasHalf_of_notMem {s : String} (h : halfMark ∉ s.toList) : hasHalf s = false := by
  rw [hasHalf, ← List.append_nil s.toList, codes_append h, List.any_append, any_isHalf_toNat]
  rfl

/-! ### Texts that are put together -/

/-- In front of a character that cannot be marked, no spelling is cut in two. -/
theorem codes_append_cons {d : Char} (h : markedCode? d = none) (cs ds : List Char) :
    codes (cs ++ d :: ds) = codes cs ++ codes (d :: ds) := by
  fun_induction codes cs with
  | case1 => rfl
  | case2 c =>
    by_cases hc : c = halfMark
    · rw [List.singleton_append, codes, if_pos hc, h]
      rfl
    · exact codes_cons hc _
  | case3 e cs n hmarked ih => rw [List.cons_append, List.cons_append, codes_marked hmarked, ih]; rfl
  | case4 e cs hmarked ih =>
    rw [List.cons_append, List.cons_append, codes, if_pos rfl, hmarked]
    exact congrArg _ ih
  | case5 c e cs hc ih =>
    rw [List.cons_append, codes_cons hc]
    exact congrArg _ ih

/-- **A text that is put together has halves** if the part in the middle has, if no part around it has a
mark, and if no spelling is cut in two. -/
theorem hasHalf_append_cons {pre s post : String} {d : Char} {ds : List Char} (hpre : halfMark ∉ pre.toList)
    (hpost : post.toList = d :: ds) (hd : markedCode? d = none) (hmark : halfMark ∉ post.toList) :
    hasHalf (pre ++ s ++ post) = hasHalf s := by
  rw [hasHalf, String.toList_append, String.toList_append, hpost, codes_append_cons hd, codes_append hpre,
    List.any_append, List.any_append, any_isHalf_toNat, ← hpost]
  have := hasHalf_of_notMem hmark
  simp_all [hasHalf]

/-! ### Streams -/

theorem codes_lt (cs : List Char) : ∀ n ∈ codes cs, n < 0x110000 := by
  fun_induction codes cs with
  | case1 => exact nofun
  | case2 c => simpa using toNat_lt c
  | case3 d cs n hmarked ih =>
    refine List.forall_mem_cons.2 ⟨?_, ih⟩
    unfold markedCode? at hmarked
    split at hmarked
    · obtain rfl := Option.some.inj hmarked
      exact toNat_lt _
    · split at hmarked
      · obtain rfl := Option.some.inj hmarked
        exact (Nat.sub_le _ _).trans_lt (toNat_lt d)
      · cases hmarked
  | case4 d cs _ ih => exact List.forall_mem_cons.2 ⟨toNat_lt _, ih⟩
  | case5 c d cs _ ih => exact List.forall_mem_cons.2 ⟨toNat_lt _, ih⟩

/-- No digit is the mark. -/
theorem halfMark_notMem_toDigits {b : ℕ} (hb : 1 < b) (n : ℕ) : halfMark ∉ Nat.toDigits b n := by
  have hdigit : ∀ m, halfMark ≠ Nat.digitChar m := fun m => by
    rcases Nat.lt_or_ge m 16 with hm | hm
    · have hdigits : ∀ m < 16, halfMark ≠ Nat.digitChar m := by decide
      exact hdigits m hm
    · rw [Nat.digitChar_eq_star.2 hm]
      decide
  induction n using Nat.strong_induction_on with
  | _ n ih =>
    rw [Nat.toDigits_eq_if hb]
    split
    · simpa using hdigit n
    · rename_i hn
      rw [List.mem_append, List.mem_singleton, not_or]
      exact ⟨ih _ (Nat.div_lt_self (by omega) hb), hdigit _⟩

theorem halfMark_notMem_hexadecimal (width n : ℕ) : halfMark ∉ hexadecimal width n := by
  rw [hexadecimal, List.mem_append, not_or]
  refine ⟨fun h => ?_, halfMark_notMem_toDigits (by decide) n⟩
  exact absurd (List.eq_of_mem_replicate h) (by decide)

/-- No half is left where halves are escaped. -/
theorem any_isHalf_escaped {ns : List ℕ} (h : ∀ n ∈ ns, n < 0x110000) :
    (codes (ns.flatMap escapeHalf)).any isHalf = false := by
  induction ns with
  | nil => rfl
  | cons n ns ih =>
    obtain ⟨hn, hns⟩ := List.forall_mem_cons.1 h
    rw [List.flatMap_cons, escapeHalf]
    split
    · have hmark : halfMark ∉ '\\' :: 'u' :: hexadecimal 4 n := by
        simp only [List.mem_cons, not_or]
        exact ⟨by decide, by decide, halfMark_notMem_hexadecimal 4 n⟩
      rw [codes_append hmark, List.any_append, any_isHalf_toNat, Bool.false_or, ih hns]
    · rename_i hhalf
      rw [codes_spelling_append hn, List.any_cons, ih hns, Bool.or_false]
      exact Bool.eq_false_iff.2 hhalf

/-- What a stream makes of a text that it takes can be encoded, unless the stream is kept in memory. -/
theorem hasHalf_written {out : Stream} {s : String} (hout : out ≠ .memory) (h : out.takes s = true) :
    hasHalf (out.written s) = false := by
  cases out with
  | memory => exact absurd rfl hout
  | bytes => simpa [Stream.takes, Stream.written] using h
  | escapedBytes =>
    rw [Stream.written, hasHalf, String.toList_ofList]
    exact any_isHalf_escaped fun n hn => codes_lt s.toList n hn

end ErCanvas.Text
