import Mathlib.Data.Rat.Floor
import ErCanvas.Proofs.Grid.Route
import ErCanvas.Proofs.Number.Bounded

/-! # Shortest walks do not stray

A shortest walk goes no further out than it has to. Past the last obstacle, and past both of its ends, the
places that lie further out on one axis can be pushed back to a common grid line; what is left is a walk
with fewer steps. So a route can be computed whatever the canvas is, if the cell is not too large for a
floating-point number: coordinates are snapped to places that are not far from them, and a walk between
those stays near to them and to the obstacles.

* `exists_snapped`: bounded coordinates can be snapped, and to zero if the cell is large.
* `Walk.exists_pushed`: a walk is pushed back to a grid line.
* `Walk.confined`: where a shortest walk goes. -/

namespace ErCanvas.Grid

/-! ### Snapping -/

section

variable {b : ℚ} {c : ℤ} {x : Number} {z : Binary64}

/-- What is near to a half is rounded to something with no whole part. -/
theorem floor_ofRat_half {q : ℚ} (hlow : 7 / 16 ≤ q) (hhigh : q ≤ 9 / 16) :
    ⌊(Binary64.ofRat q).toRat⌋ = 0 := by
  have hq : 0 < q := lt_of_lt_of_le (by norm_num) hlow
  have hplace : (2 : ℚ) ^ Binary64.place q ≤ 1 / 2 := by
    have hle : Binary64.place q ≤ -1 :=
      Binary64.place_le_of_lt hq (by decide) (hhigh.trans_lt (by norm_num))
    calc (2 : ℚ) ^ Binary64.place q ≤ 2 ^ (-1 : ℤ) := zpow_le_zpow_right₀ (by norm_num) hle
      _ = 1 / 2 := by norm_num
  have hlt : Binary64.rounded q < 1 := by linarith [Binary64.rounded_le_add hq]
  have hnot : ¬ Binary64.tooLarge ≤ Binary64.rounded q := by
    rw [Binary64.tooLarge_eq, not_le]
    exact hlt.trans_le (one_le_zpow₀ (by norm_num) (by norm_num))
  rw [Binary64.ofRat_of_pos hq, if_neg hnot]
  exact Int.floor_eq_zero_iff.2 ⟨Binary64.rounded_nonneg hq, hlt⟩

/-- The nearest whole number to a bounded one, with a half going up. -/
theorem exists_floor_add_half (hz : z.Within b) (hb : b ≤ 2 ^ (1022 : ℤ)) :
    ∃ k : ℤ, ((Number.float z).add (.float (.num (1 / 2))) >>= Number.floor) = .ok k ∧
      |(k : ℚ)| ≤ 2 * b + 2 ∧ (b ≤ 1 / 16 → k = 0) := by
  have hz' := abs_le.1 hz.abs_le
  have hsum : (Number.float z).add (.float (.num (1 / 2))) =
      .ok (.float (.ofRat (z.toRat + 1 / 2))) :=
    congrArg (fun w => Except.ok (Number.float w)) (Binary64.add_num hz _)
  have hlimit : b + 1 / 2 ≤ 2 ^ (1023 : ℤ) := by
    have hdouble : (2 : ℚ) ^ (1023 : ℤ) = 2 ^ (1022 : ℤ) + 2 ^ (1022 : ℤ) := by
      rw [← mul_two]
      exact zpow_add_one₀ (by norm_num) 1022
    rw [hdouble]
    exact add_le_add hb ((by norm_num : (1 / 2 : ℚ) ≤ 1).trans (one_le_zpow₀ (by norm_num) (by norm_num)))
  have hwithin := Binary64.ofRat_within (q := z.toRat + 1 / 2) (b := b + 1 / 2)
    (abs_le.2 ⟨by linarith, by linarith⟩) hlimit
  have hrounded := abs_le.1 hwithin.abs_le
  refine ⟨⌊(Binary64.ofRat (z.toRat + 1 / 2)).toRat⌋, ?_, ?_, fun hsmall => ?_⟩
  · rw [hsum, Outcome.ok_bind]
    cases hx : Binary64.ofRat (z.toRat + 1 / 2) with
    | num q => rfl
    | negZero => rfl
    | nan => rw [hx] at hwithin; exact hwithin.elim
    | infinity s => rw [hx] at hwithin; exact hwithin.elim
  · have hle := Int.floor_le (Binary64.ofRat (z.toRat + 1 / 2)).toRat
    have hlt := Int.lt_floor_add_one (Binary64.ofRat (z.toRat + 1 / 2)).toRat
    exact abs_le.2 ⟨by linarith, by linarith⟩
  · exact floor_ofRat_half (by linarith) (by linarith)

/-- A coordinate is snapped to the cells that are nearest to its quotient by the cell. -/
theorem exists_snapped_of_div (hdiv : x.div (.int c) = .ok (.float z)) (hz : z.Within b)
    (hb : b ≤ 2 ^ (1022 : ℤ)) : ∃ k : ℤ, snapped c (.num x) = .ok (.int (k * c)) ∧
      |(k : ℚ)| ≤ 2 * b + 2 ∧ (b ≤ 1 / 16 → k = 0) := by
  obtain ⟨k, hk, hbound⟩ := exists_floor_add_half hz hb
  obtain ⟨w, hw, hk⟩ := Outcome.bind_eq_ok.1 hk
  have hsnap : snapped c (.num x) = x.div (.int c) >>= fun q =>
      q.add (.float (.num (1 / 2))) >>= fun w => w.floor >>= fun k => .ok (.int (k * c)) := rfl
  exact ⟨k, by rw [hsnap, hdiv, Outcome.ok_bind, hw, Outcome.ok_bind, hk, Outcome.ok_bind], hbound⟩

/-- **A bounded coordinate can be snapped** to a grid line that is not far from it, and to zero if the cell
is large. -/
theorem exists_snapped (hx : x.Within b) (hb : b ≤ 2 ^ (1020 : ℤ)) (hc : 0 < c)
    (hlt : c < Number.wholeLimit) :
    ∃ k : ℤ, snapped c (.num x) = .ok (.int (k * c)) ∧ |(k * c : ℤ)| ≤ 8 * b + 2 * c ∧
      (64 * b ≤ c → k = 0) := by
  have hpos : (0 : ℚ) < c := by exact_mod_cast hc
  have hone : (1 : ℚ) ≤ c := by exact_mod_cast hc
  have hb0 : 0 ≤ b := (abs_nonneg _).trans hx.abs_le
  have hpow : (2 : ℚ) ^ (1022 : ℤ) = 4 * 2 ^ (1020 : ℤ) := by
    rw [show (1022 : ℤ) = 2 + 1020 by norm_num, zpow_add₀ (by norm_num)]
    norm_num
  have hlimit : 4 * (b / c) ≤ 2 ^ (1022 : ℤ) := by
    rw [hpow]
    exact mul_le_mul_of_nonneg_left ((div_le_self hb0 hone).trans hb) (by norm_num)
  obtain ⟨z, hz, hwithin⟩ :=
    Number.exists_div hx (hb.trans (zpow_le_zpow_right₀ (by norm_num) (by norm_num))) hc hlt
  obtain ⟨k, hk, hbound, hsmall⟩ := exists_snapped_of_div hz hwithin hlimit
  refine ⟨k, hk, ?_, fun hlarge => hsmall ?_⟩
  · push_cast
    rw [abs_mul, abs_of_pos hpos]
    calc |(k : ℚ)| * c ≤ (2 * (4 * (b / c)) + 2) * c := mul_le_mul_of_nonneg_right hbound hpos.le
      _ = 8 * b + 2 * c := by field_simp; ring
  · rw [mul_div_assoc', div_le_iff₀ hpos]
    linarith

/-- A whole coordinate can be snapped to any grid. -/
theorem exists_snapped_int {a : ℤ} (ha : |(a : ℚ)| ≤ b) (hb : b ≤ 2 ^ (1020 : ℤ)) (hc : 0 < c) :
    ∃ n, snapped c (.int a) = .ok n := by
  have hone : (1 : ℚ) ≤ c := by exact_mod_cast hc
  have hb0 : 0 ≤ b := (abs_nonneg _).trans ha
  have hlimit : 2 * (b / c) ≤ 2 ^ (1022 : ℤ) := by
    have hdouble : (2 : ℚ) ^ (1021 : ℤ) = 2 * 2 ^ (1020 : ℤ) := zpow_one_add₀ (by norm_num) 1020
    calc 2 * (b / c) ≤ 2 * 2 ^ (1020 : ℤ) :=
          mul_le_mul_of_nonneg_left ((div_le_self hb0 hone).trans hb) zero_le_two
      _ = 2 ^ (1021 : ℤ) := hdouble.symm
      _ ≤ 2 ^ (1022 : ℤ) := zpow_le_zpow_right₀ (by norm_num) (by norm_num)
  obtain ⟨z, hz, hwithin⟩ :=
    Number.exists_div_int ha (hb.trans (zpow_le_zpow_right₀ (by norm_num) (by norm_num))) hc
  obtain ⟨k, hk, -⟩ := exists_snapped_of_div hz hwithin hlimit
  exact ⟨_, hk⟩

/-- A floating-point coordinate cannot be snapped to a grid with too large a cell. -/
theorem snapped_eq_overflow (h : Number.wholeLimit ≤ |c|) (y : Binary64) :
    snapped c (.num (.float y)) = .error .overflow := by
  have hsnap : snapped c (.num (.float y)) = (Number.float y).div (.int c) >>= fun q =>
      q.add (.float (.num (1 / 2))) >>= fun w => w.floor >>= fun k => .ok (.int (k * c)) := rfl
  rw [hsnap, Number.float_div_int, Number.toBinary64_eq_error h]
  rfl

end

/-! ### Pushing back -/

namespace Terrain

variable {t : Terrain} {s g p q : Place} {w : List Place} {hi : ℤ}

/-- The place, pushed back to a line if it lies to the right of it. -/
def pushed (hi : ℤ) (p : Place) : Place := (min p.1 hi, p.2)

theorem pushed_of_le (h : p.1 ≤ hi) : pushed hi p = p := Prod.ext (min_eq_left h) rfl

theorem pushed_of_lt (h : hi < p.1) : pushed hi p = (hi, p.2) := Prod.ext (min_eq_right h.le) rfl

/-- On the line behind the last obstacle, a place is free if one further out is. -/
theorem Free.pushed (h : t.Free q) (h0 : 0 ≤ hi) (hboxes : ∀ b ∈ t.boxes, b.x + b.width + t.cell < hi) :
    t.Free (pushed hi q) := by
  rcases le_or_gt q.1 hi with hle | hlt
  · rwa [pushed_of_le hle]
  · obtain ⟨⟨⟨-, hwidth⟩, hheight⟩, -⟩ := h
    rw [pushed_of_lt hlt]
    refine ⟨⟨⟨h0, hlt.le.trans hwidth⟩, hheight⟩, fun b hb hcovers => ?_⟩
    exact absurd hcovers.1.2 (not_le.2 (hboxes b hb))

/-- A step is pushed back to a step, or to nothing if it leads across the line or along the row behind
it. -/
theorem Step.pushed (h : t.Step p q) (hc : 0 < t.cell) (hal : t.cell ∣ hi - p.1) :
    t.Step (pushed hi p) (pushed hi q) ∧ (q.1 ≤ hi ∨ hi < p.1) ∨
      pushed hi q = pushed hi p ∧ (hi < p.1 ∨ hi < q.1) := by
  -- whole cells from the line, a place on the right of it is at least a cell away
  have hfar : hi < p.1 → hi + t.cell ≤ p.1 := fun hlt => by
    have hdvd : t.cell ∣ p.1 - hi := (Int.dvd_neg.2 hal).trans (by rw [neg_sub])
    have := Int.le_of_dvd (by omega) hdvd
    omega
  have hnear : p.1 ≤ hi → hi < q.1 → p.1 = hi := fun hle hlt => by
    rcases hle.eq_or_lt with heq | hlt'
    · exact heq
    · have := Int.le_of_dvd (by omega) hal
      unfold Step at h
      omega
  rcases le_or_gt p.1 hi with hp | hp
  · rcases le_or_gt q.1 hi with hq | hq
    · rw [pushed_of_le hp, pushed_of_le hq]
      exact .inl ⟨h, .inl hq⟩
    · have heq := hnear hp hq
      rw [pushed_of_le hp, pushed_of_lt hq]
      refine .inr ⟨Prod.ext heq.symm ?_, .inr hq⟩
      unfold Step at h
      omega
  · have hfar := hfar hp
    rw [pushed_of_lt hp]
    rcases h with ⟨hx, hy⟩ | ⟨hx, hy⟩
    · refine .inr ⟨?_, .inl hp⟩
      rw [Terrain.pushed, hy, min_eq_right (by omega)]
    · rw [pushed_of_lt (hx ▸ hp)]
      exact .inl ⟨.inr ⟨rfl, hy⟩, .inr hp⟩

theorem Walk.aligned (h : t.Walk s g w) : t.Aligned s g := by
  induction h using Walk.induct with
  | single => exact .refl s
  | snoc v p q hv hs hf ih => exact ih.step hs

/-- **A walk is pushed back** to the line, and becomes shorter if it goes beyond it. -/
theorem Walk.exists_pushed (hc : 0 < t.cell) (hs : s.1 ≤ hi) (hal : t.cell ∣ hi - s.1) (h0 : 0 ≤ hi)
    (hboxes : ∀ b ∈ t.boxes, b.x + b.width + t.cell < hi) (h : t.Walk s g w) :
    ∃ v, t.Walk s (pushed hi g) v ∧ v.length ≤ w.length ∧
      ((∃ p ∈ w, hi < p.1) → v.length < w.length) := by
  induction h using Walk.induct with
  | single =>
    refine ⟨[s], by rw [pushed_of_le hs]; exact .single s, le_rfl, ?_⟩
    rintro ⟨p, hp, hlt⟩
    rw [List.mem_singleton.1 hp] at hlt
    exact absurd hs (not_le.2 hlt)
  | snoc u p q hu hstep hfree ih =>
    obtain ⟨v, hv, hle, hshorter⟩ := ih
    have hlast : p ∈ u := List.mem_of_getLast? hu.last
    have halp : t.cell ∣ hi - p.1 := by
      rw [show hi - p.1 = (hi - s.1) - (p.1 - s.1) by omega]
      exact Int.dvd_sub hal hu.aligned.1
    rw [List.length_append, List.length_singleton]
    rcases hstep.pushed hc halp with ⟨hstep', hside⟩ | ⟨hsame, -⟩
    · refine ⟨_, hv.snoc hstep' (hfree.pushed h0 hboxes), ?_, ?_⟩
      · rw [List.length_append, List.length_singleton]
        omega
      · rintro ⟨r, hr, hlt⟩
        rw [List.length_append, List.length_singleton]
        refine Nat.succ_lt_succ (hshorter ?_)
        rcases List.mem_append.1 hr with hr | hr
        · exact ⟨r, hr, hlt⟩
        · rw [List.mem_singleton.1 hr] at hlt
          exact ⟨p, hlast, hside.resolve_left (not_le.2 hlt)⟩
    · exact ⟨v, hsame ▸ hv, by omega, fun _ => by omega⟩

/-- A shortest walk does not go beyond a line behind both ends and the last obstacle. -/
theorem Walk.le_of_shortest (hc : 0 < t.cell) (hs : s.1 ≤ hi) (hg : g.1 ≤ hi) (hal : t.cell ∣ hi - s.1)
    (h0 : 0 ≤ hi) (hboxes : ∀ b ∈ t.boxes, b.x + b.width + t.cell < hi) (h : t.Walk s g w)
    (hmin : ∀ v, t.Walk s g v → w.length ≤ v.length) : ∀ p ∈ w, p.1 ≤ hi := by
  intro p hp
  obtain ⟨v, hv, -, hshorter⟩ := h.exists_pushed hc hs hal h0 hboxes
  rw [pushed_of_le hg] at hv
  by_contra hlt
  exact absurd (hmin v hv) (not_le.2 (hshorter ⟨p, hp, not_le.1 hlt⟩))

end Terrain

/-! ### The other axis -/

/-- The box with its axes exchanged. -/
def Box.swap (b : Box) : Box := ⟨b.y, b.x, b.height, b.width⟩

namespace Terrain

/-- The terrain with its axes exchanged. -/
def swap (t : Terrain) : Terrain := ⟨t.cell, t.height, t.width, t.boxes.map Box.swap⟩

variable {t : Terrain} {s g p q : Place} {w : List Place} {m : ℤ}

theorem swap_swap (t : Terrain) : t.swap.swap = t := by
  have hboxes : (t.boxes.map Box.swap).map Box.swap = t.boxes := by
    rw [List.map_map]
    exact List.map_id _
  unfold swap
  rw [hboxes]

theorem Free.swap (h : t.Free p) : t.swap.Free p.swap := by
  refine ⟨⟨h.1.2, h.1.1⟩, fun box hbox hcovers => ?_⟩
  obtain ⟨b, hb, rfl⟩ := List.mem_map.1 hbox
  exact h.2 b hb ⟨hcovers.2, hcovers.1⟩

theorem Step.swap (h : t.Step p q) : t.swap.Step p.swap q.swap := by
  rcases h with ⟨hx, hy⟩ | ⟨hx, hy⟩
  · exact .inr ⟨hy, hx⟩
  · exact .inl ⟨hy, hx⟩

theorem Walk.swap (h : t.Walk s g w) : t.swap.Walk s.swap g.swap (w.map Prod.swap) where
  head := by rw [List.head?_map, h.head]; rfl
  last := by rw [List.getLast?_map, h.last]; rfl
  steps := List.isChain_map_of_isChain _ (fun _ _ hab => ⟨hab.1.swap, hab.2.swap⟩) h.steps

/-- A walk on the terrain with its axes exchanged is one on the terrain. -/
theorem Walk.of_swap (h : t.swap.Walk s.swap g.swap w) : t.Walk s g (w.map Prod.swap) := by
  have := h.swap
  rwa [swap_swap, Prod.swap_swap, Prod.swap_swap] at this

/-! ### Bounds -/

/-- Whole cells from any value, there is a line less than a cell behind any other. -/
theorem exists_line (hc : 0 < t.cell) (a m : ℤ) :
    ∃ hi, t.cell ∣ hi - a ∧ m < hi ∧ hi ≤ m + t.cell := by
  have hdiv := Int.mul_ediv_add_emod (m - a) t.cell
  have hnonneg := Int.emod_nonneg (m - a) hc.ne'
  have hlt := Int.emod_lt_of_pos (m - a) hc
  refine ⟨a + t.cell * ((m - a) / t.cell + 1), ⟨(m - a) / t.cell + 1, by omega⟩, ?_, ?_⟩
  · rw [mul_add, mul_one]
    omega
  · rw [mul_add, mul_one]
    omega

/-- The obstacles, grown by a cell, end at `m` or before on both axes. -/
def Reaches (t : Terrain) (m : ℤ) : Prop :=
  ∀ b ∈ t.boxes, b.x + b.width + t.cell ≤ m ∧ b.y + b.height + t.cell ≤ m

theorem Reaches.swap (h : t.Reaches m) : t.swap.Reaches m := by
  intro box hbox
  obtain ⟨b, hb, rfl⟩ := List.mem_map.1 hbox
  exact (h b hb).symm

theorem Walk.fst_le (hc : 0 < t.cell) (h0 : 0 ≤ m) (hs : s.1 ≤ m) (hg : g.1 ≤ m) (hm : t.Reaches m)
    (h : t.Walk s g w) (hmin : ∀ v, t.Walk s g v → w.length ≤ v.length) :
    ∀ p ∈ w, p.1 ≤ m + t.cell := by
  obtain ⟨hi, hal, hlt, hle⟩ := exists_line hc s.1 m
  intro p hp
  exact (h.le_of_shortest hc (by omega) (by omega) hal (by omega)
    (fun b hb => (hm b hb).1.trans_lt hlt) hmin p hp).trans hle

/-- **Where a shortest walk goes:** behind its start it stays on the canvas, and at most a cell beyond its
ends and the obstacles. -/
theorem Walk.confined (hc : 0 < t.cell) (h0 : 0 ≤ m) (hs : s.1 ≤ m ∧ s.2 ≤ m) (hg : g.1 ≤ m ∧ g.2 ≤ m)
    (hm : t.Reaches m) (h : t.Walk s g w) (hmin : ∀ v, t.Walk s g v → w.length ≤ v.length) :
    ∀ p ∈ w, p = s ∨ (0 ≤ p.1 ∧ p.1 ≤ m + t.cell) ∧ 0 ≤ p.2 ∧ p.2 ≤ m + t.cell := by
  have hmin' : ∀ v, t.swap.Walk s.swap g.swap v → (w.map Prod.swap).length ≤ v.length := by
    intro v hv
    have := hmin _ hv.of_swap
    rwa [List.length_map] at this ⊢
  intro p hp
  have hx := h.fst_le hc h0 hs.1 hg.1 hm hmin p hp
  have hy : p.swap.1 ≤ m + t.swap.cell :=
    h.swap.fst_le (t := t.swap) hc h0 hs.2 hg.2 hm.swap hmin' p.swap (List.mem_map_of_mem hp)
  obtain ⟨v, rfl⟩ := List.head?_eq_some_iff.1 h.head
  rcases List.mem_cons.1 hp with rfl | hp
  · exact .inl rfl
  · obtain ⟨⟨⟨h1, -⟩, h2, -⟩, -⟩ := h.free p hp
    exact .inr ⟨⟨h1, hx⟩, h2, hy⟩

end Terrain

end ErCanvas.Grid
