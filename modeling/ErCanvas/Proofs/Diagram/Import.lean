import ErCanvas.Proofs.Diagram.NormalForm
import ErCanvas.Proofs.Number.Bounded

/-! # How an import ends

Whatever text is imported, the import gives a diagram or refuses the text with a reason, but for one
kind of document: the zoom is a whole number that is too large for a floating-point number, and
everything that is read before the zoom is in order. Then the import fails without a refusal.

* `Overscaled`: the documents of that kind.
* `importFrom_outcome`: how every import ends. -/

namespace ErCanvas

open Json (Readable)

/-! ### Refusals -/

namespace Diagram

variable {α β : Type}

/-- Whenever the operation fails, its fault shows that the document is not that of a diagram. -/
def Refusing (r : Outcome α) : Prop := ∀ f, r = .error f → isFormatFault f = true

theorem refusing_ok (a : α) : Refusing (.ok a) := fun _ h => nomatch h

theorem refusing_error {f : Fault} (h : isFormatFault f = true) :
    Refusing (.error f : Outcome α) := by
  rintro _ ⟨⟩
  exact h

theorem Refusing.bind {x : Outcome α} {f : α → Outcome β} (hx : Refusing x)
    (hf : ∀ a, x = .ok a → Refusing (f a)) : Refusing (x >>= f) := by
  cases x with
  | error e => exact refusing_error (hx e rfl)
  | ok a => exact hf a rfl

theorem refusing_mapM {f : α → Outcome β} (hf : ∀ a, Refusing (f a)) (as : List α) :
    Refusing (as.mapM f) := by
  induction as with
  | nil => exact refusing_ok _
  | cons a as ih =>
    rw [List.mapM_cons]
    exact (hf a).bind fun _ _ => ih.bind fun _ _ => refusing_ok _

/-! ### Parts of documents -/

section

variable (key : String) (v : Json)

theorem refusing_entry : Refusing (v.entry key) := by
  unfold Json.entry
  split
  · split
    · exact refusing_ok _
    · exact refusing_error rfl
  · exact refusing_error rfl

theorem refusing_entryD (default : Json) : Refusing (v.entryD key default) := by
  unfold Json.entryD Json.entry?
  split
  · exact refusing_ok _
  · exact refusing_error rfl

theorem refusing_mapMembers {f : Json → Outcome α} (hf : ∀ v, Refusing (f v)) :
    Refusing (v.mapMembers f) := by
  have hm : Refusing v.members := by
    unfold Json.members
    split
    · exact refusing_ok _
    · exact refusing_ok _
    · exact refusing_ok _
    · exact refusing_error rfl
  exact hm.bind fun members _ => refusing_mapM hf members

theorem refusing_number : Refusing v.number := by
  unfold Json.number
  split
  · exact refusing_ok _
  · exact refusing_ok _
  · exact refusing_error rfl

/-! ### Schemas -/

theorem refusing_reference : Refusing (Reference.ofJson? v) := by
  unfold Reference.ofJson?
  split
  · exact (refusing_entry _ v).bind fun _ _ => (refusing_entry _ v).bind fun _ _ => refusing_ok _
  · exact refusing_ok _

theorem refusing_column : Refusing (Column.ofJson v) :=
  (refusing_entryD _ v _).bind fun w _ => (refusing_reference w).bind fun _ _ =>
    (refusing_entry _ v).bind fun _ _ => (refusing_entryD _ v _).bind fun _ _ =>
      (refusing_entryD _ v _).bind fun _ _ => (refusing_entryD _ v _).bind fun _ _ =>
        (refusing_entryD _ v _).bind fun _ _ => refusing_ok _

theorem refusing_table : Refusing (Table.ofJson v) := by
  have hname : ∀ w, Refusing (Table.nameOf w) := by
    intro w
    unfold Table.nameOf
    split
    · exact refusing_ok _
    · exact refusing_error rfl
  exact (refusing_entry _ v).bind fun w _ => (refusing_entryD _ v _).bind fun columns _ =>
    (refusing_mapMembers columns refusing_column).bind fun _ _ => (hname w).bind fun _ _ =>
      refusing_ok _

theorem refusing_relationship : Refusing (Relationship.ofJson v) :=
  (refusing_entry _ v).bind fun _ _ => (refusing_entry _ v).bind fun _ _ =>
    (refusing_entry _ v).bind fun _ _ => (refusing_entry _ v).bind fun _ _ => refusing_ok _

theorem refusing_schema : Refusing (Schema.ofJson v) :=
  (refusing_entry _ v).bind fun tables _ =>
    (refusing_mapMembers tables refusing_table).bind fun _ _ =>
      (refusing_entryD _ v _).bind fun relationships _ =>
        (refusing_mapMembers relationships refusing_relationship).bind fun _ _ => refusing_ok _

/-! ### Diagrams -/

theorem refusing_point : Refusing (Point.ofJson v) :=
  (refusing_entry _ v).bind fun _ _ => (refusing_entry _ v).bind fun _ _ => refusing_ok _

theorem refusing_make (s : Schema Json) (positions zoom pan version : Json) :
    Refusing (make s positions zoom pan version) := by
  have hpositions : Refusing (positionsOf positions) := by
    unfold positionsOf Json.entries
    split
    · exact (refusing_ok _).bind fun entries _ => refusing_mapM
        (fun e : String × Json => (refusing_point e.2).bind fun _ _ => refusing_ok _) entries
    · exact (refusing_error rfl).bind fun _ _ => refusing_mapM
        (fun e : String × Json => (refusing_point e.2).bind fun _ _ => refusing_ok _) _
  have hzoom : Refusing (clampZoom zoom) := by
    refine (refusing_number zoom).bind fun z _ => ?_
    split
    · split
      · exact refusing_ok _
      · exact refusing_ok _
    · exact refusing_ok _
  have hpan : Refusing (panOf pan) := by
    unfold panOf
    split
    · exact refusing_point pan
    · exact refusing_ok _
  exact hpositions.bind fun _ _ => hzoom.bind fun _ _ => hpan.bind fun _ _ => refusing_ok _

theorem refusing_readFloat (s : String) : Refusing (Text.readFloat s) := by
  unfold Text.readFloat
  split
  · exact refusing_error rfl
  · dsimp only
    split
    · exact refusing_ok _
    · split
      · exact refusing_ok _
      · split
        · exact refusing_ok _
        · exact refusing_error rfl

/-- The value is a whole number that is too large. -/
def IsTooLarge (v : Json) : Prop := ∃ n : ℤ, v = .int n ∧ Number.wholeLimit ≤ |n|

/-- Only a whole number that is too large fails to be a zoom without a refusal. -/
theorem zoomOf_outcome :
    (IsTooLarge v ∧ zoomOf v = .error .overflow) ∨ ¬ IsTooLarge v ∧ Refusing (zoomOf v) := by
  have hwhole : ∀ n : ℤ, ¬ Number.wholeLimit ≤ |n| →
      Refusing ((Number.int n).toBinary64 >>= fun x => .ok (Json.num (.float x))) := by
    intro n hn
    refine Refusing.bind (fun f hf => ?_) fun _ _ => refusing_ok _
    exact absurd (Number.ofRat?_eq_error.1 hf).2 hn
  cases v with
  | str s =>
    exact .inr ⟨by simp [IsTooLarge], (refusing_readFloat s).bind fun _ _ => refusing_ok _⟩
  | num n =>
    cases n with
    | int n =>
      by_cases hn : Number.wholeLimit ≤ |n|
      · have hover : Number.ofRat? n = .error .overflow := Number.ofRat?_eq_error.2 ⟨rfl, hn⟩
        exact .inl ⟨⟨n, rfl, hn⟩, by
          simp only [zoomOf, Json.number, Outcome.ok_bind, Number.toBinary64, hover]; rfl⟩
      · exact .inr ⟨by simpa [IsTooLarge] using hn, hwhole n hn⟩
    | float x => exact .inr ⟨by simp [IsTooLarge], refusing_ok _⟩
  | bool b =>
    refine .inr ⟨by simp [IsTooLarge], hwhole _ (not_le.2 ?_)⟩
    cases b with
    | false => exact Int.one_pos.trans Number.one_lt_wholeLimit
    | true => exact Number.one_lt_wholeLimit
  | _ => exact .inr ⟨by simp [IsTooLarge], refusing_error rfl⟩

/-- The document has all keys that it has to have, its schema can be read, and its zoom is a whole number
that is too large. -/
structure Overscaled (document : Json) : Prop where
  keys : hasRequiredKeys document = true
  schema : ∃ w s, document.entry "schema" = .ok w ∧ Schema.ofJson w = .ok s
  zoom : ∃ view z, document.entry "viewState" = .ok view ∧ view.entry "zoom" = .ok z ∧ IsTooLarge z

theorem entry_of_hasRequiredKeys {key : String} (h : hasRequiredKeys v = true)
    (hk : key ∈ requiredKeys) : ∃ w, v.entry key = .ok w := by
  unfold hasRequiredKeys at h
  split at h
  · rename_i entries
    obtain ⟨w, hw⟩ := Option.isSome_iff_exists.1 (List.all_eq_true.1 h key hk)
    exact ⟨w, by rw [Json.entry, hw]⟩
  · cases h

theorem overscaled_iff {view w : Json} (hkeys : hasRequiredKeys v = true)
    (hview : v.entry "viewState" = .ok view) (hw : v.entry "schema" = .ok w) :
    Overscaled v ↔ (∃ s, Schema.ofJson w = .ok s) ∧
      ∃ z, view.entry "zoom" = .ok z ∧ IsTooLarge z := by
  constructor
  · rintro ⟨-, ⟨w', s, hw', hs⟩, view', z, hview', hz, ht⟩
    rw [hw] at hw'
    rw [hview] at hview'
    cases hw'
    cases hview'
    exact ⟨⟨s, hs⟩, z, hz, ht⟩
  · rintro ⟨⟨s, hs⟩, z, hz, ht⟩
    exact ⟨hkeys, ⟨w, s, hw, hs⟩, view, z, hview, hz, ht⟩

/-- Reading a diagram fails without a refusal only at its zoom, when all that is read before is in
order. -/
theorem ofJson_outcome (hkeys : hasRequiredKeys v = true) :
    (Overscaled v ∧ ofJson v = .error .overflow) ∨ ¬ Overscaled v ∧ Refusing (ofJson v) := by
  obtain ⟨view, hview⟩ := entry_of_hasRequiredKeys v hkeys (by decide : "viewState" ∈ requiredKeys)
  obtain ⟨w, hw⟩ := entry_of_hasRequiredKeys v hkeys (by decide : "schema" ∈ requiredKeys)
  obtain ⟨ps, hps⟩ := entry_of_hasRequiredKeys v hkeys (by decide : "positions" ∈ requiredKeys)
  rw [overscaled_iff v hkeys hview hw]
  simp only [ofJson, hview, hw, hps, Outcome.ok_bind]
  cases hs : Schema.ofJson w with
  | error f => exact .inr ⟨by simp, refusing_error (refusing_schema w f hs)⟩
  | ok s =>
    cases hz : view.entry "zoom" with
    | error f => exact .inr ⟨by simp, refusing_error (refusing_entry _ view f hz)⟩
    | ok z =>
      rcases zoomOf_outcome z with ⟨ht, ho⟩ | ⟨ht, hr⟩
      · exact .inl ⟨⟨⟨s, rfl⟩, z, rfl, ht⟩, by rw [Outcome.ok_bind, Outcome.ok_bind, ho]; rfl⟩
      · refine .inr ⟨by simpa using ht, ?_⟩
        exact hr.bind fun _ _ => (refusing_entry _ view).bind fun _ _ =>
          (refusing_entry _ v).bind fun _ _ => refusing_make _ _ _ _ _

end

/-! ### Imports -/

theorem message_ne (e : Defect) : e.message ≠ "" := by
  cases e with
  | unreadable reason => exact (by simp : "Import error: " ++ reason ≠ "")
  | badFormat => exact (by decide : "Invalid export file format" ≠ "")

/-- The import gives a diagram, or refuses the text with a reason. -/
def Settles (r : Outcome (Except Defect Diagram)) : Prop :=
  (∃ d, r = .ok (.ok d)) ∨ ∃ e, r = .ok (.error e) ∧ e.message ≠ ""

theorem ofDocument_outcome (v : Json) :
    (Overscaled v ∧ ofDocument v = .error .overflow) ∨ ¬ Overscaled v ∧ Settles (ofDocument v) := by
  unfold ofDocument
  split
  · rename_i hkeys
    rcases ofJson_outcome v hkeys with ⟨ho, he⟩ | ⟨ho, hr⟩
    · exact .inl ⟨ho, by rw [he]; rfl⟩
    · refine .inr ⟨ho, ?_⟩
      cases hd : ofJson v with
      | ok d => exact .inl ⟨d, rfl⟩
      | error f => exact .inr ⟨.badFormat, if_pos (hr f hd), message_ne _⟩
  · rename_i hkeys
    exact .inr ⟨fun h => hkeys h.keys, .inr ⟨.badFormat, rfl, message_ne _⟩⟩

/-- **How an import ends:** with a diagram, or with a refusal and its reason, unless the text is that of
an overscaled document; then it fails without a refusal. -/
theorem importFrom_outcome (text : String) :
    ((∃ v, Json.read text = .ok v ∧ Overscaled v) ∧
        importFrom (.str text) = .error .overflow) ∨
      ¬ (∃ v, Json.read text = .ok v ∧ Overscaled v) ∧ Settles (importFrom (.str text)) := by
  cases hr : Json.read text with
  | error f =>
    have hi : importFrom (.str text) = .ok (.error (.unreadable (f.message text.toList))) := by
      rw [importFrom, Json.readValue, hr]; rfl
    exact .inr ⟨by simp, .inr ⟨_, hi, message_ne _⟩⟩
  | ok v =>
    rw [importFrom_of_read hr]
    simpa using ofDocument_outcome v

/-- The document of a diagram without tables. -/
def blank (zoom : ℤ) : Json :=
  .obj [("version", formatVersion), ("schema", .obj [("tables", .arr [])]), ("positions", .obj []),
    ("viewState", .obj [("zoom", .int zoom), ("pan", .null)])]

theorem readable_blank {zoom : ℤ} (h : (Number.int zoom).Regular) : Readable 3 (blank zoom) := by
  simpa [blank, formatVersion] using h.readsBack

theorem overscaled_blank {zoom : ℤ} (h : Number.wholeLimit ≤ |zoom|) : Overscaled (blank zoom) where
  keys := rfl
  schema := ⟨_, _, rfl, rfl⟩
  zoom := ⟨_, _, rfl, rfl, zoom, rfl, h⟩

theorem wholeLimit_le : Number.wholeLimit ≤ |(10 : ℤ) ^ 309| := by
  have h : ∀ a b c : ℕ, Nat.pow 2 a ≤ Nat.pow 10 c → (2 : ℤ) ^ a - 2 ^ b ≤ |10 ^ c| := by
    intro a b c h
    have hac : (2 : ℤ) ^ a ≤ 10 ^ c := by exact_mod_cast h
    have hb : (0 : ℤ) < 2 ^ b := by positivity
    rw [abs_of_pos (by positivity)]
    linarith
  exact h 1024 970 309 (by decide +kernel)

theorem regular_pow {k : ℕ} (h : k < Fault.digitLimit) : (Number.int (10 ^ k)).Regular := by
  have hp : ∀ b : ℕ, k < b → ((10 : ℤ) ^ k).natAbs < 10 ^ b := by
    intro b hb
    rw [Int.natAbs_pow]
    exact Nat.pow_lt_pow_right (by decide) hb
  exact hp _ h

/-- A zoom of three hundred and ten digits is too large. -/
theorem importFrom_oversized : importFrom (.str (blank (10 ^ 309)).print) = .error .overflow := by
  have hregular := regular_pow (k := 309) (by decide)
  have hread : Json.read (blank (10 ^ 309)).print = .ok (blank (10 ^ 309)) :=
    Json.read_print ((readable_blank hregular).mono (by decide))
  rcases ofDocument_outcome (blank (10 ^ 309)) with ⟨-, h⟩ | ⟨h, -⟩
  · rw [importFrom_of_read hread]
    exact h
  · exact absurd (overscaled_blank wholeLimit_le) h

end Diagram

end ErCanvas
