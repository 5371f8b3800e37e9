import Mathlib.Data.List.Find
import Mathlib.Data.Set.Card
import ErCanvas.Proofs.Grid.Frontier

/-! # What a frontier holds after any calls

A frontier is pushed to, looked at and taken from in any order. What it holds then is told by a ledger
of the calls, which only writes down, for each place, the offers made there since a node was last taken
out there.

* `Ledger`: the standing offers at each place; the first of them is the one whose node is open.
* `Frontier.Records`: the invariant; a push (`Records.offer`) and a removal (`Records.remove`) keep it.
* `Frontier.Refines`: what look-ups, sizes, best nodes and removals show of the ledger.
* `Indexed`: the frontier with a table of its open nodes by position, changed beside the list.
* `after_refines`: after any calls a frontier shows what the ledger says, with the table or without. -/

namespace ErCanvas.Grid

/-- A node to be pushed: its total is its cost with the estimate of the rest. -/
structure Offer where
  place : Place
  cost : ℤ
  rest : ℤ
  parent : Option ℕ

def Offer.node (o : Offer) : Node :=
  ⟨.int o.place.1, .int o.place.2, .int o.cost, .int (o.cost + o.rest), o.parent⟩

theorem Offer.whole_node (o : Offer) : o.node.Whole := rfl

@[simp] theorem Offer.place_node (o : Offer) : o.node.place = o.place := rfl

/-- A call on a frontier. Nodes go by the order in which they were pushed. -/
inductive Call where
  | push (o : Offer)
  | peek
  | get (p : Place)
  | remove (i : ℕ)

/-! ### The ledger -/

/-- The number of offers so far, and those that stand at each place with their numbers, the earliest
first. -/
structure Ledger where
  count : ℕ
  standing : Place → List (ℕ × Offer)

namespace Ledger

def empty : Ledger := ⟨0, fun _ => []⟩

/-- The number of the first offer that stands at a place. -/
def first (l : Ledger) (p : Place) : Option ℕ := (l.standing p).head?.map Prod.fst

/-- One more offer stands at its place. -/
def push (l : Ledger) (o : Offer) : Ledger :=
  ⟨l.count + 1, Function.update l.standing o.place (l.standing o.place ++ [(l.count, o)])⟩

/-- No offer stands any more at the place where the first one has the number. -/
def remove (l : Ledger) (i : ℕ) : Ledger :=
  { l with standing := fun p => if l.first p = some i then [] else l.standing p }

def apply (l : Ledger) : Call → Ledger
  | .push o => l.push o
  | .remove i => l.remove i
  | .peek | .get _ => l

/-- The ledger of the calls. -/
def after (calls : List Call) : Ledger := calls.foldl apply empty

variable {l : Ledger} {o : Offer} {p : Place} {i : ℕ}

theorem first_eq_none : l.first p = none ↔ l.standing p = [] := by simp [first]

theorem standing_push_self :
    (l.push o).standing o.place = l.standing o.place ++ [(l.count, o)] := by simp [push]

theorem standing_push_of_ne (h : p ≠ o.place) : (l.push o).standing p = l.standing p := by
  simp [push, h]

theorem first_push_self : (l.push o).first o.place = some ((l.first o.place).getD l.count) := by
  rw [first, standing_push_self, first]
  cases l.standing o.place <;> rfl

theorem first_push_of_ne (h : p ≠ o.place) : (l.push o).first p = l.first p := by
  rw [first, standing_push_of_ne h, first]

theorem standing_remove_of_ne (h : l.first p ≠ some i) :
    (l.remove i).standing p = l.standing p := if_neg h

theorem first_remove : (l.remove i).first p = if l.first p = some i then none else l.first p := by
  by_cases h : l.first p = some i
  · rw [if_pos h, first_eq_none]
    exact if_pos h
  · rw [if_neg h, first, standing_remove_of_ne h, first]

theorem remove_eq_self (h : ∀ p, l.first p ≠ some i) : l.remove i = l := by
  have hstanding : (l.remove i).standing = l.standing :=
    funext fun p => standing_remove_of_ne (h p)
  exact congrArg (Ledger.mk l.count) hstanding

end Ledger

/-- Of the offers the earliest with the smallest cost. -/
def Cheapest (offers : List (ℕ × Offer)) (o : Offer) : Prop :=
  ∃ earlier i later, offers = earlier ++ (i, o) :: later ∧ (∀ e ∈ earlier, o.cost < e.2.cost) ∧
    ∀ e ∈ later, o.cost ≤ e.2.cost

theorem Cheapest.single (i : ℕ) (o : Offer) : Cheapest [(i, o)] o := ⟨[], i, [], rfl, nofun, nofun⟩

/-- A later offer takes the place of the cheapest only if its cost is smaller. -/
theorem Cheapest.concat {offers : List (ℕ × Offer)} {o : Offer} (h : Cheapest offers o) (i : ℕ)
    (n : Offer) : Cheapest (offers ++ [(i, n)]) (if n.cost < o.cost then n else o) := by
  obtain ⟨earlier, k, later, rfl, hearlier, hlater⟩ := h
  split
  · rename_i hlt
    refine ⟨_, i, [], rfl, fun e he => ?_, nofun⟩
    rcases List.mem_append.1 he with he | he
    · exact hlt.trans (hearlier e he)
    · rcases List.mem_cons.1 he with rfl | he
      · exact hlt
      · exact hlt.trans_le (hlater e he)
  · rename_i hle
    refine ⟨earlier, k, later ++ [(i, n)], by simp, hearlier, fun e he => ?_⟩
    rcases List.mem_append.1 he with he | he
    · exact hlater e he
    · rw [List.mem_singleton.1 he]
      exact not_lt.1 hle

/-! ### Frontiers -/

namespace Frontier

/-- The frontier after a call; a removal that fails leaves it as it is. -/
def apply (f : Frontier) : Call → Frontier
  | .push o => f.offer o.node
  | .remove i =>
    match f.remove i with
    | .ok f' => f'
    | .error _ => f
  | .peek | .get _ => f

/-- The frontier after the calls. -/
def after (calls : List Call) : Frontier := calls.foldl apply empty

/-- The open node at a place. -/
def nodeAt? (f : Frontier) (p : Place) : Option ℕ := f.find? (.int p.1) (.int p.2)

variable {f f' : Frontier} {l : Ledger} {i j : ℕ} {o : Offer} {n : Node}

theorem node_congr (h : f'.nodes = f.nodes) (i : ℕ) : f'.node i = f.node i := by
  rw [node, node, h]

theorem remove_of_not_mem (h : i ∉ f.opens) : f.remove i = .error .notListed := by
  unfold remove
  split
  · rename_i k hk
    obtain ⟨hlt, hi, -⟩ := Array.findIdx?_eq_some_iff_getElem.1 hk
    have hmem : f.opened[k] ∈ f.opens := Array.mem_toList_iff.2 (Array.getElem_mem hlt)
    exact absurd (beq_iff_eq.1 hi ▸ hmem) h
  · rfl

/-- Of nodes in the order of their numbers the first of the best ones is kept. -/
theorem foldl_better_first (hw : ∀ i, (f.node i).Whole) : ∀ (is : List ℕ) (m : ℕ),
    (m :: is).Pairwise (· < ·) → ∀ j ∈ m :: is,
      f.total (is.foldl f.better m) < f.total j ∨
        f.total (is.foldl f.better m) = f.total j ∧ is.foldl f.better m ≤ j
  | [], m, _, j, hj => by
    rw [List.mem_singleton.1 hj]
    exact Or.inr ⟨rfl, le_rfl⟩
  | a :: is, m, hsorted, j, hj => by
    obtain ⟨hm, hrest⟩ := List.pairwise_cons.1 hsorted
    have hma : m < a := hm a List.mem_cons_self
    rw [List.foldl_cons]
    rcases better_cases hw m a with ⟨hb, hlt⟩ | ⟨hb, hle⟩
    · rw [hb]
      have ih := foldl_better_first hw is a hrest
      rcases List.mem_cons.1 hj with rfl | hj
      · have := ih a List.mem_cons_self
        omega
      · exact ih j hj
    · rw [hb]
      have hkept : (m :: is).Pairwise (· < ·) := List.pairwise_cons.2
        ⟨fun j hj => hm j (List.mem_cons_of_mem _ hj), (List.pairwise_cons.1 hrest).2⟩
      have ih := foldl_better_first hw is m hkept
      rcases List.mem_cons.1 hj with rfl | hj
      · exact ih _ List.mem_cons_self
      · rcases List.mem_cons.1 hj with rfl | hj
        · have := ih m List.mem_cons_self
          omega
        · exact ih j (List.mem_cons_of_mem _ hj)

/-- **The best open node** is the first of those with the smallest total. -/
theorem best?_first (hw : ∀ i, (f.node i).Whole) (hsorted : f.opens.Pairwise (· < ·))
    (h : f.best? = some i) :
    ∀ j ∈ f.opens, f.total i < f.total j ∨ f.total i = f.total j ∧ i ≤ j := by
  unfold best? at h
  split at h
  · cases h
  · rename_i a ha
    obtain ⟨is, his⟩ : ∃ is, f.opens = a :: is := by
      rw [← List.head?_eq_some_iff, opens, List.head?_eq_getElem?, Array.getElem?_toList]
      exact ha
    -- The fold begins with its first node and looks at it once more.
    have hagain : f.better a a = a := by rcases better_cases hw a a with hb | hb <;> exact hb.1
    have hi : is.foldl f.better a = i := by
      rw [← Array.foldl_toList, Option.some_inj] at h
      change f.opens.foldl f.better a = i at h
      rwa [his, List.foldl_cons, hagain] at h
    rw [his] at hsorted ⊢
    rw [← hi]
    exact foldl_better_first hw is a hsorted

theorem node_make_lt (hi : i < f.nodes.size) : (f.make n).1.node i = f.node i := node_push_lt hi

/-- What is found is not changed by a node that is not open. -/
theorem nodeAt?_make (hf : f.Whole) (n : Node) (p : Place) : (f.make n).1.nodeAt? p = f.nodeAt? p := by
  simp only [nodeAt?, find?, ← Array.find?_toList]
  refine List.find?_congr fun i hi => ?_
  rw [node_make_lt (hf.lt i hi)]

theorem offer_of_none (hf : f.Whole) (h : f.nodeAt? o.place = none) :
    f.offer o.node = ⟨f.nodes.push o.node, f.opened.push f.nodes.size⟩ := by
  have hnode : (f.make o.node).1.node f.nodes.size = o.node := node_push_size
  have hfind : (f.make o.node).1.find? o.node.x o.node.y = none := (nodeAt?_make hf _ _).trans h
  rw [offer, pushOrRelax, show (f.make o.node).2 = f.nodes.size from rfl, hnode]
  simp only [hfind]
  rfl

theorem offer_of_some (hf : f.Whole) (h : f.nodeAt? o.place = some j) :
    f.offer o.node = (f.make o.node).1.relax j o.node := by
  have hnode : (f.make o.node).1.node f.nodes.size = o.node := node_push_size
  have hfind : (f.make o.node).1.find? o.node.x o.node.y = some j := (nodeAt?_make hf _ _).trans h
  rw [offer, pushOrRelax, show (f.make o.node).2 = f.nodes.size from rfl, hnode]
  simp only [hfind]

theorem Offered.whole (h : Offered f f' n) (hf : f.Whole) (hn : n.Whole) : f'.Whole where
  node k := by
    rcases Nat.lt_or_ge k f'.nodes.size with hk | hk
    · rcases h.node_cases hk with ⟨-, hnode⟩ | hnode
      · rw [hnode]; exact hf.node k
      · rw [hnode]; exact hn
    · rw [node_of_size_le hk]
      exact Node.whole_default
  lt k hk := by
    rw [h.size]
    rcases h.opens with ⟨-, -, -, hopens, -⟩ | ⟨-, hopens⟩
    · exact (hf.lt k (hopens ▸ hk)).trans (Nat.lt_succ_self _)
    · rw [hopens] at hk
      rcases List.mem_append.1 hk with hk | hk
      · exact (hf.lt k hk).trans (Nat.lt_succ_self _)
      · rw [List.mem_singleton.1 hk]
        exact Nat.lt_succ_self _

/-- The frontier holds what the ledger says: at each place the first of the standing offers is open,
with the data of the cheapest one. -/
structure Records (f : Frontier) (l : Ledger) : Prop where
  whole : f.Whole
  count : f.nodes.size = l.count
  sorted : f.opens.Pairwise (· < ·)
  stored : ∀ p i, l.first p = some i ↔ i ∈ f.opens ∧ f.place i = p
  node : ∀ i ∈ f.opens, ∃ o, Cheapest (l.standing (f.place i)) o ∧ f.node i = o.node

namespace Records

theorem empty : Records .empty .empty where
  whole := ⟨fun _ => rfl, nofun⟩
  count := rfl
  sorted := .nil
  stored := fun p i => ⟨nofun, fun h => by cases h.1⟩
  node := nofun

variable (h : Records f l)
include h

theorem nodup : f.opens.Nodup := h.sorted.imp Nat.ne_of_lt

theorem eq_of_place_eq (hi : i ∈ f.opens) (hj : j ∈ f.opens) (hp : f.place i = f.place j) :
    i = j := by
  have hfirst := (h.stored _ _).2 ⟨hi, hp⟩
  rw [(h.stored _ _).2 ⟨hj, rfl⟩] at hfirst
  exact (Option.some.inj hfirst).symm

theorem nodeAt? (p : Place) : f.nodeAt? p = l.first p := by
  cases hfind : f.nodeAt? p with
  | some i => exact ((h.stored p i).2 (find?_eq_some h.whole.node hfind)).symm
  | none =>
    have hnone := find?_eq_none h.whole.node hfind
    cases hfirst : l.first p with
    | some i =>
      obtain ⟨hi, hp⟩ := (h.stored p i).1 hfirst
      exact absurd hp (hnone i hi)
    | none => rfl

/-- The data of an open node after an offer. -/
theorem node_offer (hi : i ∈ f.opens) (ho : Offered f f' n) :
    f'.node i = if f.place i = n.place ∧ n.cost.toInt < f.cost i then n else f.node i := by
  have hlt := h.whole.lt i hi
  split
  · rename_i hcheaper
    obtain ⟨hp, hc⟩ := hcheaper
    rcases ho.opens with ⟨j, hj, hpj, -, hcj⟩ | ⟨hnew, -⟩
    · rw [ho.place_eq (h.whole.lt j hj)] at hpj
      obtain rfl := h.eq_of_place_eq hi hj (hp.trans hpj.symm)
      rcases ho.node i hlt with hsame | ⟨-, -, -, hnode⟩
      · rw [cost_of_node hsame] at hcj
        exact absurd hc (not_lt.2 hcj)
      · exact hnode
    · exact absurd hp (hnew i hi)
  · rename_i hkept
    rcases ho.node i hlt with hsame | ⟨-, hp, hc, -⟩
    · exact hsame
    · exact absurd ⟨hp, hc⟩ hkept

theorem first_eq_none {p : Place} (hp : ∀ i ∈ f.opens, f.place i ≠ p) : l.first p = none := by
  rw [Option.eq_none_iff_forall_ne_some]
  intro i hi
  obtain ⟨hi, hpi⟩ := (h.stored p i).1 hi
  exact hp i hi hpi

/-- What is open after an offer is what the ledger has first. -/
theorem stored_offer (ho : Offered f f' o.node) (p : Place) (i : ℕ) :
    (l.push o).first p = some i ↔ i ∈ f'.opens ∧ f'.place i = p := by
  have hplace (k : ℕ) (hk : k ∈ f.opens) : f'.place k = f.place k := ho.place_eq (h.whole.lt k hk)
  have hold : (i ∈ f.opens ∧ f'.place i = p) ↔ i ∈ f.opens ∧ f.place i = p :=
    and_congr_right fun hi => by rw [hplace i hi]
  rcases ho.opens with ⟨j, hj, hpj, hopens, -⟩ | ⟨hnew, hopens⟩
  · rw [hopens, hold, ← h.stored]
    by_cases hp : p = o.place
    · subst hp
      have hfirst : l.first o.place = some j := (h.stored _ j).2 ⟨hj, (hplace j hj).symm.trans hpj⟩
      rw [Ledger.first_push_self, hfirst, Option.getD_some]
    · rw [Ledger.first_push_of_ne hp]
  · have hlast : f'.place f.nodes.size = o.place := place_of_node ho.last
    rw [hopens, List.mem_append, or_and_right, hold, ← h.stored, List.mem_singleton]
    by_cases hp : p = o.place
    · subst hp
      rw [Ledger.first_push_self, show l.first o.place = none from h.first_eq_none hnew,
        Option.getD_none, ← h.count, Option.some_inj]
      refine ⟨fun hi => Or.inr ⟨hi.symm, hi ▸ hlast⟩, ?_⟩
      rintro (hi | hi)
      · cases hi
      · exact hi.1.symm
    · rw [Ledger.first_push_of_ne hp, or_iff_left]
      rintro ⟨rfl, hlast'⟩
      exact hp (hlast'.symm.trans hlast)

/-- An open node has the data of the cheapest offer after an offer. -/
theorem node_push (ho : Offered f f' o.node) (hi : i ∈ f'.opens) :
    ∃ n, Cheapest ((l.push o).standing (f'.place i)) n ∧ f'.node i = n.node := by
  have hold (hi : i ∈ f.opens) :
      ∃ n, Cheapest ((l.push o).standing (f'.place i)) n ∧ f'.node i = n.node := by
    obtain ⟨n, hcheapest, hnode⟩ := h.node i hi
    have hcost : f.cost i = n.cost := cost_of_node hnode
    rw [ho.place_eq (h.whole.lt i hi), h.node_offer hi ho, hcost]
    by_cases hp : f.place i = o.place
    · rw [hp] at hcheapest ⊢
      refine ⟨_, Ledger.standing_push_self ▸ hcheapest.concat l.count o, ?_⟩
      rw [hnode, apply_ite Offer.node]
      exact if_congr (and_iff_right rfl) rfl rfl
    · rw [Ledger.standing_push_of_ne hp, if_neg fun hc => hp hc.1]
      exact ⟨n, hcheapest, hnode⟩
  rcases ho.opens with ⟨-, -, -, hopens, -⟩ | ⟨hnew, hopens⟩
  · exact hold (hopens ▸ hi)
  · rw [hopens] at hi
    rcases List.mem_append.1 hi with hi | hi
    · exact hold hi
    · obtain rfl := List.mem_singleton.1 hi
      have hplace : f'.place f.nodes.size = o.place := place_of_node ho.last
      have hnone : l.standing o.place = [] := Ledger.first_eq_none.1 (h.first_eq_none hnew)
      rw [hplace, Ledger.standing_push_self, hnone]
      exact ⟨o, .single _ o, ho.last⟩

/-- **A push** is what the ledger says. -/
theorem offer (o : Offer) : Records (f.offer o.node) (l.push o) := by
  have ho := offered_offer h.whole o.whole_node
  refine ⟨ho.whole h.whole o.whole_node, by rw [ho.size, h.count]; rfl, ?_, h.stored_offer ho,
    fun i hi => h.node_push ho hi⟩
  rcases ho.opens with ⟨-, -, -, hopens, -⟩ | ⟨-, hopens⟩
  · rw [hopens]
    exact h.sorted
  · rw [hopens]
    refine List.pairwise_append.2 ⟨h.sorted, List.pairwise_singleton _ _, fun i hi j hj => ?_⟩
    rw [List.mem_singleton.1 hj]
    exact h.whole.lt i hi

/-- **A removal** is what the ledger says. -/
theorem remove (hi : i ∈ f.opens) : ∃ f', f.remove i = .ok f' ∧ Records f' (l.remove i) := by
  obtain ⟨f', hremove, hnodes, hopens⟩ := remove_of_mem hi
  have hnode (k : ℕ) : f'.node k = f.node k := node_congr hnodes k
  have hplace (k : ℕ) : f'.place k = f.place k := congrArg Node.place (hnode k)
  have hmem (k : ℕ) : k ∈ f'.opens ↔ k ≠ i ∧ k ∈ f.opens := by
    rw [hopens]
    exact h.nodup.mem_erase_iff
  have hfirst (p : Place) : l.first p = some i ↔ f.place i = p :=
    (h.stored p i).trans (and_iff_right hi)
  refine ⟨f', hremove, ⟨fun k => hnode k ▸ h.whole.node k, fun k hk => ?_⟩, ?_, ?_, ?_, ?_⟩
  · rw [hnodes]
    exact h.whole.lt k ((hmem k).1 hk).2
  · rw [hnodes]
    exact h.count
  · rw [hopens]
    exact h.sorted.sublist List.erase_sublist
  · intro p k
    rw [Ledger.first_remove, hmem, hplace, and_assoc]
    by_cases hp : f.place i = p
    · rw [if_pos ((hfirst p).2 hp)]
      exact ⟨nofun, fun ⟨hne, hk, hpk⟩ => absurd (h.eq_of_place_eq hk hi (hpk.trans hp.symm)) hne⟩
    · rw [if_neg (mt (hfirst p).1 hp), h.stored, iff_and_self]
      rintro ⟨-, hpk⟩ rfl
      exact hp hpk
  · intro k hk
    obtain ⟨hne, hk⟩ := (hmem k).1 hk
    rw [hplace, hnode, Ledger.standing_remove_of_ne]
    · exact h.node k hk
    · exact fun hp => hne (h.eq_of_place_eq hk hi ((hfirst _).1 hp).symm)

/-- What is found after an offer: the place of the offer has its node, or the new one. -/
theorem nodeAt?_offer (o : Offer) : (f.offer o.node).nodeAt? =
    Function.update f.nodeAt? o.place (some ((f.nodeAt? o.place).getD f.nodes.size)) := by
  funext p
  rw [(h.offer o).nodeAt?, h.nodeAt?, h.count]
  by_cases hp : p = o.place
  · rw [hp, Ledger.first_push_self, Function.update_self]
  · rw [Ledger.first_push_of_ne hp, Function.update_of_ne hp, h.nodeAt?]

/-- What is found after a removal: nothing at the place of the node. -/
theorem nodeAt?_remove (hi : i ∈ f.opens) (hremove : f.remove i = .ok f') :
    f'.nodeAt? = Function.update f.nodeAt? (f.place i) none := by
  obtain ⟨f'', hremove', h'⟩ := h.remove hi
  obtain rfl := Except.ok.inj (hremove'.symm.trans hremove)
  have hfirst (p : Place) : l.first p = some i ↔ f.place i = p :=
    (h.stored p i).trans (and_iff_right hi)
  funext p
  rw [h'.nodeAt?, Ledger.first_remove]
  by_cases hp : f.place i = p
  · rw [if_pos ((hfirst p).2 hp), ← hp, Function.update_self]
  · rw [if_neg (mt (hfirst p).1 hp), Function.update_of_ne (Ne.symm hp), h.nodeAt?]

/-- **Each call** is what the ledger says. -/
theorem apply (c : Call) : Records (f.apply c) (l.apply c) := by
  cases c with
  | push o => exact h.offer o
  | peek => exact h
  | get p => exact h
  | remove i =>
    by_cases hi : i ∈ f.opens
    · obtain ⟨f', hremove, h'⟩ := h.remove hi
      rw [Frontier.apply, hremove]
      exact h'
    · rw [Frontier.apply, remove_of_not_mem hi]
      have hfirst (p : Place) : l.first p ≠ some i := fun hp => hi ((h.stored p i).1 hp).1
      rw [Ledger.apply, Ledger.remove_eq_self hfirst]
      exact h

end Records

/-- The calls, one after the other, are what the ledger says. -/
theorem records_after (calls : List Call) : Records (after calls) (Ledger.after calls) := by
  induction calls using List.reverseRecOn with
  | nil => exact .empty
  | append_singleton calls c ih =>
    rw [after, Ledger.after, List.foldl_concat, List.foldl_concat]
    exact ih.apply c

/-- What a frontier shows of a ledger. -/
structure Refines (f : Frontier) (l : Ledger) : Prop where
  /-- No two open nodes are at one place. -/
  nodup : (f.opens.map f.place).Nodup
  /-- A look-up agrees with the list of the open nodes. -/
  mem : ∀ p i, f.nodeAt? p = some i ↔ i ∈ f.opens ∧ f.place i = p
  /-- At a place stands the node that was pushed there first. -/
  first : ∀ p, f.nodeAt? p = l.first p
  size : f.size = {p | l.standing p ≠ []}.ncard
  /-- It has the data of the earliest push with the smallest cost. -/
  node : ∀ p i, f.nodeAt? p = some i → ∃ o, Cheapest (l.standing p) o ∧ f.node i = o.node
  best_none : f.best? = none ↔ f.opens = []
  /-- The best node has the smallest total, and of several with that total it was opened first. -/
  best : ∀ i, f.best? = some i → i ∈ f.opens ∧
    ∀ j ∈ f.opens, f.total i < f.total j ∨ f.total i = f.total j ∧ i ≤ j
  /-- A node that is open can be taken out, and no other node is taken out with it. -/
  remove : ∀ i ∈ f.opens, ∃ f', f.remove i = .ok f' ∧ f'.nodes = f.nodes ∧ f'.opens = f.opens.erase i
  /-- A node that is not open is refused, and nothing changes. -/
  refuse : ∀ i ∉ f.opens, f.remove i = .error .notListed ∧ f.apply (.remove i) = f

theorem Records.nodup_places (h : Records f l) : (f.opens.map f.place).Nodup :=
  h.nodup.map_on fun _ hi _ hj => h.eq_of_place_eq hi hj

/-- The number of open nodes is the number of places where an offer stands. -/
theorem Records.size (h : Records f l) : f.size = {p | l.standing p ≠ []}.ncard := by
  have hset : {p | l.standing p ≠ []} = ((f.opens.map f.place).toFinset : Set Place) := by
    ext p
    have hfirst : l.standing p ≠ [] ↔ ∃ i, l.first p = some i := by
      rw [← Option.ne_none_iff_exists', Ne, Ne, Ledger.first_eq_none]
    simp only [h.stored] at hfirst
    simpa using hfirst
  rw [hset, Set.ncard_coe_finset, List.toFinset_card_of_nodup h.nodup_places, List.length_map]
  exact Array.length_toList.symm

theorem Records.refines (h : Records f l) : Refines f l where
  nodup := h.nodup_places
  mem p i := by rw [h.nodeAt?, h.stored]
  first := h.nodeAt?
  size := h.size
  node p i hi := by
    rw [h.nodeAt?, h.stored] at hi
    obtain ⟨hi, rfl⟩ := hi
    exact h.node i hi
  best_none := by
    refine ⟨best?_eq_none, fun hopens => ?_⟩
    cases hb : f.best? with
    | none => rfl
    | some i =>
      have hi := (best?_eq_some h.whole.node hb).1
      rw [hopens] at hi
      cases hi
  best i hb := ⟨(best?_eq_some h.whole.node hb).1, best?_first h.whole.node h.sorted hb⟩
  remove i hi := remove_of_mem hi
  refuse i hi := by
    refine ⟨remove_of_not_mem hi, ?_⟩
    rw [Frontier.apply, remove_of_not_mem hi]

end Frontier

/-! ### The table beside the list -/

/-- A frontier with a table of its open nodes by their places. -/
structure Indexed where
  frontier : Frontier
  index : Place → Option ℕ

namespace Indexed

def empty : Indexed := ⟨.empty, fun _ => none⟩

/-- Opens a node and enters it in the table, or lowers the cost of the node that the table has at its
place. -/
def push (s : Indexed) (o : Offer) : Indexed :=
  let (f, i) := s.frontier.make o.node
  match s.index o.place with
  | none => ⟨{ f with opened := f.opened.push i }, Function.update s.index o.place (some i)⟩
  | some j => ⟨f.relax j (f.node i), s.index⟩

/-- Takes a node out of the list, if it stands there, and then what the table has at its place. -/
def remove (s : Indexed) (i : ℕ) : Indexed :=
  match s.frontier.remove i with
  | .ok f => ⟨f, Function.update s.index (f.place i) none⟩
  | .error _ => s

def apply (s : Indexed) : Call → Indexed
  | .push o => s.push o
  | .remove i => s.remove i
  | .peek | .get _ => s

/-- The frontier and its table after the calls. -/
def after (calls : List Call) : Indexed := calls.foldl apply empty

/-- The list is that of the frontier, and the table has what is found in it. -/
structure Agrees (s : Indexed) (f : Frontier) : Prop where
  frontier : s.frontier = f
  index : ∀ p, s.index p = f.nodeAt? p

section

variable {s : Indexed} {f : Frontier} {l : Ledger}

theorem agrees_push (hf : f.Records l) (h : s.Agrees f) (o : Offer) :
    (s.push o).Agrees (f.offer o.node) := by
  obtain ⟨rfl, hindex⟩ := h
  have hindex : s.index = s.frontier.nodeAt? := funext hindex
  have hnodeAt := hf.nodeAt?_offer o
  cases hfind : s.frontier.nodeAt? o.place with
  | none =>
    rw [hfind, Option.getD_none] at hnodeAt
    rw [push, hindex, hfind]
    exact ⟨(Frontier.offer_of_none hf.whole hfind).symm, congrFun hnodeAt.symm⟩
  | some j =>
    rw [hfind, Option.getD_some, ← hfind, Function.update_eq_self] at hnodeAt
    have hnode : (s.frontier.make o.node).1.node s.frontier.nodes.size = o.node :=
      Frontier.node_push_size
    have hrelax := congrArg ((s.frontier.make o.node).1.relax j) hnode
    rw [push, hindex, hfind]
    exact ⟨hrelax.trans (Frontier.offer_of_some hf.whole hfind).symm, congrFun hnodeAt.symm⟩

theorem agrees_remove (hf : f.Records l) (h : s.Agrees f) (i : ℕ) :
    (s.remove i).Agrees (f.apply (.remove i)) := by
  obtain ⟨rfl, hindex⟩ := h
  by_cases hi : i ∈ s.frontier.opens
  · obtain ⟨f', hremove, hnodes, -⟩ := Frontier.remove_of_mem hi
    have hplace : f'.place i = s.frontier.place i := congrArg Node.place (Frontier.node_congr hnodes i)
    rw [remove, Frontier.apply, hremove]
    refine ⟨rfl, fun p => ?_⟩
    rw [hf.nodeAt?_remove hi hremove, ← funext hindex, ← hplace]
  · rw [remove, Frontier.apply, Frontier.remove_of_not_mem hi]
    exact ⟨rfl, hindex⟩

theorem agrees_apply (hf : f.Records l) (h : s.Agrees f) (c : Call) :
    (s.apply c).Agrees (f.apply c) := by
  cases c with
  | push o => exact agrees_push hf h o
  | remove i => exact agrees_remove hf h i
  | peek => exact h
  | get p => exact h

theorem agrees_after (calls : List Call) : (after calls).Agrees (.after calls) := by
  induction calls using List.reverseRecOn with
  | nil => exact ⟨rfl, fun _ => rfl⟩
  | append_singleton calls c ih =>
    rw [after, Frontier.after, List.foldl_concat, List.foldl_concat]
    exact agrees_apply (Frontier.records_after calls) ih c

end

end Indexed

/-- **A frontier keeps the ledger of its calls**: whatever is called, it shows what the ledger says, and
so does the frontier with a table of its open nodes. -/
theorem Frontier.after_refines (calls : List Call) :
    (after calls).Refines (.after calls) ∧ (Indexed.after calls).Agrees (after calls) :=
  ⟨(records_after calls).refines, Indexed.agrees_after calls⟩

end ErCanvas.Grid
