import ErCanvas.Proofs.Diagram.Stored
import ErCanvas.Proofs.Json.Read

/-! # The normal form of imported documents

Whatever text a diagram is imported from, its export is read as the same diagram, the version apart, and
is exported as the same text: one export reaches the normal form of the document.

* `exists_clampZoom_float`: a clamped zoom lies within the limits.
* `storable_of_ofJson`: what is read from a document is storable.
* `importFrom_reprint`: the export of an imported diagram is a normal form. -/

namespace ErCanvas.Diagram

open Json (Readable)

/-! ### Zooms -/

theorem settled_of_ofRat? {q : ℚ} {x : Binary64} (h : Number.ofRat? q = .ok x) : x.Settled := by
  have hq := Binary64.settled_ofRat q
  unfold Number.ofRat? at h
  split at h
  · cases h
  · cases h; exact hq

theorem settled_of_readFloat {s : String} {x : Binary64} (h : Text.readFloat s = .ok x) :
    x.Settled := by
  unfold Text.readFloat at h
  split at h
  · cases h
  · dsimp only at h
    split at h
    · cases h; trivial
    · split at h
      · cases h; trivial
      · split at h
        · cases h; exact Decimal.settled_toBinary64 _
        · cases h

theorem settled_of_toBinary64 {n : Number} {x : Binary64} (hn : n.Regular)
    (h : n.toBinary64 = .ok x) : x.Settled := by
  cases n with
  | int n => exact settled_of_ofRat? h
  | float y => cases h; exact hn

/-- The zoom of a document is a floating-point number. -/
theorem settled_of_zoomOf {d : ℕ} {v z : Json} (hv : Readable d v) (h : zoomOf v = .ok z) :
    ∃ x : Binary64, z = .num (.float x) ∧ x.Settled := by
  unfold zoomOf at h
  split at h
  · obtain ⟨x, hx, h⟩ := Outcome.bind_eq_ok.1 h
    cases h
    exact ⟨x, rfl, settled_of_readFloat hx⟩
  · obtain ⟨n, hn, h⟩ := Outcome.bind_eq_ok.1 h
    obtain ⟨x, hx, h⟩ := Outcome.bind_eq_ok.1 h
    cases h
    refine ⟨x, rfl, settled_of_toBinary64 ?_ hx⟩
    have hone : 1 < 10 ^ Fault.digitLimit := Nat.one_lt_pow (by decide) (by decide)
    cases hv with
    | num _ hback => cases hn; exact Number.readsBack_iff.1 hback
    | bool _ b =>
      cases hn
      cases b with
      | false => exact Nat.zero_lt_one.trans hone
      | true => exact hone
    | _ => cases hn

/-- The zoom is a number within the limits. -/
def Within (z : Json) : Prop := ∃ q : ℚ, z = .num (.float (.num q)) ∧ 1 / 4 ≤ q ∧ q ≤ 2

theorem lt_greatest (q : ℚ) : (Number.float (.num q)).lt greatestZoom = decide (q < 2) := rfl

theorem least_lt (q : ℚ) : leastZoom.lt (.float (.num q)) = decide (1 / 4 < q) := rfl

/-- A zoom within the limits is kept. -/
theorem clampZoom_within {z : Json} (h : Within z) : clampZoom z = .ok z := by
  obtain ⟨q, rfl, h1, h2⟩ := h
  rw [clampZoom_num, lt_greatest, least_lt]
  rcases h2.lt_or_eq with h2 | rfl
  · rw [if_pos (decide_eq_true h2)]
    rcases h1.lt_or_eq with h1 | rfl
    · rw [if_pos (decide_eq_true h1)]
    · rw [if_neg (by simp)]; rfl
  · rw [if_neg (by simp)]; rfl

/-- **A clamped zoom lies within the limits.** -/
theorem exists_clampZoom_float {x : Binary64} (hx : x.Settled) : ∃ q : ℚ,
    clampZoom (.num (.float x)) = .ok (.num (.float (.num q))) ∧ (Binary64.num q).Settled ∧
      1 / 4 ≤ q ∧ q ≤ 2 := by
  have hleast : (Binary64.num (1 / 4)).Settled := Binary64.settled_of_isExact (by decide +kernel)
  have hgreatest : (Binary64.num 2).Settled := Binary64.settled_of_isExact (by decide +kernel)
  rw [clampZoom_num]
  cases x with
  | nan => exact ⟨2, rfl, hgreatest, by norm_num, le_rfl⟩
  | infinity s =>
    cases s with
    | false => exact ⟨2, rfl, hgreatest, by norm_num, le_rfl⟩
    | true => exact ⟨1 / 4, rfl, hleast, le_rfl, by norm_num⟩
  | negZero =>
    rw [if_pos (by decide +kernel), if_neg (by decide +kernel)]
    exact ⟨1 / 4, rfl, hleast, le_rfl, by norm_num⟩
  | num q =>
    rw [lt_greatest, least_lt]
    by_cases h2 : q < 2
    · rw [if_pos (decide_eq_true h2)]
      by_cases h1 : 1 / 4 < q
      · rw [if_pos (decide_eq_true h1)]
        exact ⟨q, rfl, hx, h1.le, h2.le⟩
      · rw [if_neg (by simpa using h1)]
        exact ⟨1 / 4, rfl, hleast, le_rfl, by norm_num⟩
    · rw [if_neg (by simpa using h2)]
      exact ⟨2, rfl, hgreatest, by norm_num, le_rfl⟩

/-! ### What is imported -/

variable {k : ℕ} {v : Json} {d : Diagram}

theorem legible_positionsOf {ps : List (String × Point)} (hv : Readable (k + 2) v)
    (h : positionsOf v = .ok ps) :
    (ps.map Prod.fst).Nodup ∧ ∀ q ∈ ps, q.2.Legible k := by
  obtain ⟨entries, rfl, hps⟩ := positionsOf_eq_ok.1 h
  cases hv with
  | obj hk hes =>
    have hkeys : entries.map Prod.fst = ps.map Prod.fst := by
      rw [← List.forall₂_eq_eq_eq, List.forall₂_map_left_iff, List.forall₂_map_right_iff]
      exact hps.imp fun _ _ he => he.1
    refine ⟨hkeys ▸ hk, fun q hq => ?_⟩
    obtain ⟨e, he, -, hp⟩ := Outcome.exists_of_forall₂ hps hq
    exact Point.legible_ofJson (hes e he) hp

theorem legible_panOf {p : Point} (hv : Readable (k + 1) v) (h : panOf v = .ok p) :
    p.Legible k := by
  unfold panOf at h
  split at h
  · exact Point.legible_ofJson hv h
  · cases h
    have hzero : (Number.int 0).Regular := Nat.pow_pos (by decide)
    exact ⟨.num k hzero.readsBack, .num k hzero.readsBack⟩

/-- What is read from a readable document is storable in the present version of the format, and its zoom
is within the limits. -/
theorem storable_of_ofJson (hv : Readable (k + 7) v) (h : ofJson v = .ok d) :
    Storable k { d with version := formatVersion } ∧ Within d.zoom := by
  obtain ⟨⟨w, hw, hs⟩, ⟨positions, hpositions, hps⟩, view, hview, ⟨u, z, hu, hz, hz'⟩, pan, hpan,
    hp⟩ := readFrom_of_ofJson h
  have hview := hv.entry hview
  obtain ⟨x, rfl, hx⟩ := settled_of_zoomOf (hview.entry hu) hz
  obtain ⟨q, hclamp, hq, h1, h2⟩ := exists_clampZoom_float hx
  have hzoom : d.zoom = .num (.float (.num q)) := Except.ok.inj (hz'.symm.trans hclamp)
  obtain ⟨hdistinct, hpoints⟩ := legible_positionsOf (hv.entry hpositions) hps
  exact ⟨{ version := rfl
           normal := Schema.ofJson_normal hs
           names := legible_schema (hv.entry hw) hs
           distinct := hdistinct
           positions := hpoints
           zoom := hzoom ▸ .num _ (Number.readsBack_float hq)
           pan := legible_panOf (hview.entry hpan) hp }, q, hzoom, h1, h2⟩

/-! ### Normal forms -/

/-- The text that a diagram is exported as. -/
def reprint (d : Diagram) : Outcome String :=
  print d.schema (positionsJson d.positions) d.zoom d.pan.toJson

theorem reprint_eq (h : Within d.zoom) :
    d.reprint = .ok { d with version := formatVersion }.toJson.print := by
  rw [reprint, print, make, positionsOf_positionsJson, clampZoom_within h, panOf_toJson]
  rfl

/-- **The export of an imported diagram is a normal form:** it is imported, what is imported from it is
exported as the same text, and the zooms lie within the limits. -/
theorem importFrom_reprint {text : String} (h : importFrom (.str text) = .ok (.ok d)) :
    ∃ exported d', d.reprint = .ok exported ∧ importFrom (.str exported) = .ok (.ok d') ∧
      d'.reprint = .ok exported ∧ Within d.zoom ∧ Within d'.zoom := by
  obtain ⟨v, hv, hd⟩ := exists_read_of_importFrom h
  obtain ⟨hstorable, hwithin⟩ := storable_of_ofJson (k := 983) (Json.readable_of_read hv) hd
  have hz : zoomOf d.zoom = .ok d.zoom := by
    obtain ⟨q, hq, -⟩ := hwithin
    rw [hq]; rfl
  exact ⟨_, { d with version := formatVersion }, reprint_eq hwithin,
    hstorable.importFrom_toJson le_rfl hz (clampZoom_within hwithin), reprint_eq hwithin, hwithin,
    hwithin⟩

/-- A document of another version, with a number for a name, flags that do not agree, and a zoom that is
the text of a number beyond the limits. -/
def worn : Json :=
  .obj [("version", .int 2),
    ("schema", .obj [("tables", .arr [.obj [("name", .str "Users"),
      ("columns", .arr [.obj [("name", .int 1), ("isPrimaryKey", .bool true),
        ("isNullable", .bool true)]])]])]),
    ("positions", .obj [("users", .obj [("x", .null), ("y", .num (.float (.num (1 / 2))))])]),
    ("viewState", .obj [("zoom", .str "7.5"), ("pan", .null)])]

theorem readable_worn : Readable 9 worn := by
  have hlim : 2 < 10 ^ Fault.digitLimit :=
    (by decide : 2 < 10 ^ 1).trans_le (Nat.pow_le_pow_right (by decide) (by decide))
  have hone : 1 < 10 ^ Fault.digitLimit := by omega
  have hhalf : (Binary64.num 2⁻¹).Settled := Binary64.settled_of_isExact (by decide +kernel)
  simp [worn, Number.readsBack_iff, Number.Regular, hlim, hone, hhalf]

theorem exists_importFrom_worn : ∃ d, importFrom (.str worn.print) = .ok (.ok d) := by
  have h : ((ofDocument worn).toOption.bind (·.toOption)).isSome = true := by decide +kernel
  rw [importFrom, Json.readValue_print (readable_worn.mono (by decide))]
  cases hi : ofDocument worn with
  | error f => rw [hi] at h; cases h
  | ok r =>
    cases r with
    | error e => rw [hi] at h; cases h
    | ok d => exact ⟨d, hi⟩

theorem importFrom_reprint_worn : ∃ d exported d',
    importFrom (.str worn.print) = .ok (.ok d) ∧ d.reprint = .ok exported ∧
      importFrom (.str exported) = .ok (.ok d') ∧ d'.reprint = .ok exported ∧
      Within d.zoom ∧ Within d'.zoom := by
  obtain ⟨d, hd⟩ := exists_importFrom_worn
  obtain ⟨exported, d', hr⟩ := importFrom_reprint hd
  exact ⟨d, exported, d', hd, hr⟩

end ErCanvas.Diagram
