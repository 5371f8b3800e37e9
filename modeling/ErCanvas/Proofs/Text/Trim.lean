import Mathlib.Data.List.Basic
import Mathlib.Data.List.DropRight
import Mathlib.Data.List.TakeWhile
import ErCanvas.Text.Blank

/-! # Trimmed texts

A text is its trimmed form between two runs of white space. A character that is not white space keeps
apart what is trimmed before it and what is trimmed behind it. -/

namespace ErCanvas.Text

/-- The text is white space, or empty. -/
def Blank (cs : List Char) : Prop := ∀ c ∈ cs, isBlank c

instance (cs : List Char) : Decidable (Blank cs) := List.decidableBAll (isBlank · = true) cs

theorem dropWhile_blank {b : List Char} (hb : Blank b) (cs : List Char) :
    (b ++ cs).dropWhile isBlank = cs.dropWhile isBlank := by
  rw [List.dropWhile_append_of_pos hb]

theorem dropWhile_append_cons {α : Type} {p : α → Bool} {c : α} (hc : p c = false) (a b : List α) :
    (a ++ c :: b).dropWhile p = a.dropWhile p ++ c :: b := by
  rw [List.dropWhile_append]
  split
  · rename_i h
    rw [List.isEmpty_iff] at h
    rw [h, List.dropWhile_cons_of_neg (by simp [hc])]; rfl
  · rfl

/-- What is dropped at the end is dropped behind the last item that stays. -/
theorem dropWhileEnd_append_cons {α : Type} {p : α → Bool} {c : α} (hc : p c = false)
    (a b : List α) : dropWhileEnd p (a ++ c :: b) = a ++ c :: dropWhileEnd p b := by
  have h : (a ++ c :: b).reverse = b.reverse ++ c :: a.reverse := by simp
  rw [dropWhileEnd, h, dropWhile_append_cons hc]
  simp [dropWhileEnd]

theorem dropWhile_eq_self {α : Type} {p : α → Bool} {l : List α} (h : ∀ x ∈ l, p x = false) :
    l.dropWhile p = l := by
  cases l with
  | nil => rfl
  | cons x l => rw [List.dropWhile_cons_of_neg (by simp [h x (.head _)])]

theorem dropWhileBoth_eq_self {α : Type} {p : α → Bool} {l : List α} (h : ∀ x ∈ l, p x = false) :
    dropWhileBoth p l = l := by
  have hr : ∀ x ∈ l.reverse, p x = false := fun x hx => h x (List.mem_reverse.1 hx)
  rw [dropWhileBoth, dropWhile_eq_self h, dropWhileEnd, dropWhile_eq_self hr, List.reverse_reverse]

/-- What is dropped at both ends goes down to a part that stays. -/
theorem dropWhileBoth_append {α : Type} {p : α → Bool} {a l b : List α} (ha : ∀ x ∈ a, p x)
    (hl : ∀ x ∈ l, p x = false) (hb : ∀ x ∈ b, p x) : dropWhileBoth p (a ++ (l ++ b)) = l := by
  rw [dropWhileBoth, List.dropWhile_append_of_pos ha, List.dropWhile_append, dropWhile_eq_self hl]
  split
  · rename_i h
    rw [List.isEmpty_iff] at h
    rw [h, List.dropWhile_eq_nil_iff.2 hb]
    rfl
  · have hrev : ∀ x ∈ b.reverse, p x := fun x hx => hb x (List.mem_reverse.1 hx)
    have hlast : ∀ x ∈ l.reverse, p x = false := fun x hx => hl x (List.mem_reverse.1 hx)
    rw [dropWhileEnd, List.reverse_append, List.dropWhile_append_of_pos hrev, dropWhile_eq_self hlast,
      List.reverse_reverse]

theorem exists_blank_start (cs : List Char) : ∃ b, Blank b ∧ cs = b ++ trimStart cs :=
  ⟨cs.takeWhile isBlank, fun _ hc => List.mem_takeWhile_imp hc, List.takeWhile_append_dropWhile.symm⟩

theorem exists_blank_end (cs : List Char) : ∃ b, Blank b ∧ cs = dropWhileEnd isBlank cs ++ b := by
  obtain ⟨b, hb, h⟩ := exists_blank_start cs.reverse
  refine ⟨b.reverse, fun c hc => hb c (List.mem_reverse.1 hc), ?_⟩
  have h := congrArg List.reverse h
  rwa [List.reverse_reverse, List.reverse_append] at h

/-- **A text is its trimmed form between white space.** -/
theorem exists_trim_eq (cs : List Char) : ∃ a b, Blank a ∧ Blank b ∧ cs = a ++ trim cs ++ b := by
  obtain ⟨a, ha, h1⟩ := exists_blank_start cs
  obtain ⟨b, hb, h2⟩ := exists_blank_end (trimStart cs)
  refine ⟨a, b, ha, hb, ?_⟩
  rw [List.append_assoc]
  exact h1.trans (congrArg (a ++ ·) h2)

theorem trim_infix (cs : List Char) : trim cs <:+: cs := by
  obtain ⟨a, b, -, -, h⟩ := exists_trim_eq cs
  exact ⟨a, b, h.symm⟩

theorem dropWhileEnd_sublist {α : Type} (p : α → Bool) (l : List α) :
    (dropWhileEnd p l).Sublist l :=
  List.reverse_sublist.1 (by simpa [dropWhileEnd] using List.dropWhile_sublist _)

/-- Without the white space at its end, a text is its trimmed form behind white space. -/
theorem exists_blank_dropWhileEnd (cs : List Char) :
    ∃ b, Blank b ∧ dropWhileEnd isBlank cs = b ++ trim cs := by
  obtain ⟨b, hb, h⟩ := exists_blank_start cs
  have hhead := List.head?_dropWhile_not isBlank cs
  cases hd : cs.dropWhile isBlank with
  | nil =>
    refine ⟨dropWhileEnd isBlank cs, fun c hc => ?_, ?_⟩
    · exact List.dropWhile_eq_nil_iff.1 hd c ((dropWhileEnd_sublist _ _).subset hc)
    · rw [trim, dropWhileBoth, hd]; exact (List.append_nil _).symm
  | cons c r =>
    have hc : isBlank c = false := by rwa [hd] at hhead
    refine ⟨b, hb, ?_⟩
    rw [trim, dropWhileBoth, hd, h, trimStart, hd, dropWhileEnd_append_cons hc]
    exact congrArg (b ++ ·) (dropWhileEnd_append_cons hc [] r).symm

theorem trim_append_cons {c : Char} (hc : isBlank c = false) (a b : List Char) :
    trim (a ++ c :: b) = trimStart a ++ c :: dropWhileEnd isBlank b := by
  rw [trim, dropWhileBoth, dropWhile_append_cons hc, dropWhileEnd_append_cons hc]; rfl

theorem trim_blank_append {b : List Char} (hb : Blank b) (cs : List Char) :
    trim (b ++ cs) = trim cs := by
  rw [trim, dropWhileBoth, dropWhile_blank hb]; rfl

theorem trim_append_blank {b : List Char} (hb : Blank b) (cs : List Char) : trim (cs ++ b) = trim cs := by
  have hrev : Blank b.reverse := fun c hc => hb c (List.mem_reverse.1 hc)
  have hend : ∀ x, dropWhileEnd isBlank (x ++ b) = dropWhileEnd isBlank x := fun x => by
    rw [dropWhileEnd, List.reverse_append, dropWhile_blank hrev]; rfl
  rw [trim, dropWhileBoth, List.dropWhile_append]
  split
  · rename_i h
    rw [List.isEmpty_iff] at h
    have hstart : b.dropWhile isBlank = [] := List.dropWhile_eq_nil_iff.2 hb
    rw [trim, dropWhileBoth, h, hstart]
  · exact hend _

/-- A text between two characters that are not white space is trimmed. -/
theorem trim_eq_self {cs : List Char} (h1 : ∀ c ∈ cs.head?, isBlank c = false)
    (h2 : ∀ c ∈ cs.getLast?, isBlank c = false) : trim cs = cs := by
  have hs : cs.dropWhile isBlank = cs := by
    cases cs with
    | nil => rfl
    | cons c cs => rw [List.dropWhile_cons_of_neg (by simp [h1 c rfl])]
  rw [trim, dropWhileBoth, hs]
  rcases List.eq_nil_or_concat' cs with rfl | ⟨a, c, rfl⟩
  · rfl
  · have hc : isBlank c = false := h2 c (by simp)
    exact dropWhileEnd_append_cons hc a []

/-- A trimmed text does not begin with white space. -/
theorem head?_trim (cs : List Char) : ∀ c ∈ (trim cs).head?, isBlank c = false := by
  have hhead := List.head?_dropWhile_not isBlank cs
  cases hd : cs.dropWhile isBlank with
  | nil =>
    have htrim : trim cs = [] := by rw [trim, dropWhileBoth, hd]; rfl
    rw [htrim]
    exact nofun
  | cons c r =>
    have hc : isBlank c = false := by rwa [hd] at hhead
    have htrim : trim cs = c :: dropWhileEnd isBlank r := by
      rw [trim, dropWhileBoth, hd]
      exact dropWhileEnd_append_cons hc [] r
    rw [htrim]
    rintro d ⟨⟩
    exact hc

/-- A trimmed text does not end with white space. -/
theorem getLast?_trim (cs : List Char) : ∀ c ∈ (trim cs).getLast?, isBlank c = false := by
  have hhead := List.head?_dropWhile_not isBlank (cs.dropWhile isBlank).reverse
  rw [trim, dropWhileBoth, dropWhileEnd, List.getLast?_reverse]
  intro c hc
  rwa [hc] at hhead

theorem trim_trim (cs : List Char) : trim (trim cs) = trim cs :=
  trim_eq_self (head?_trim cs) (getLast?_trim cs)

end ErCanvas.Text
