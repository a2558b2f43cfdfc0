import Mathlib.Data.List.Nodup
import Mathlib.Order.Lattice
import Mathlib.Data.List.Pairwise

/-!
# Pages of a sorted query

A query that sorts by a key which is not unique answers with any of several lists. Its pages, each
read from a list of its own, cover the rows exactly once for every choice of these lists if and only
if no two rows with equal keys are on different pages.
-/
namespace RecoverAI.Store

variable {α κ : Type} [LinearOrder κ] {key : α → κ} {l order u v : List α} {limit : Nat} {x a b : α}

/-- `order` has the elements of `l`, those with larger keys first. -/
structure Sorts (key : α → κ) (l order : List α) : Prop where
  perm : order.Perm l
  sorted : order.Pairwise fun x y => key y ≤ key x

/-- `OFFSET offset LIMIT limit`. -/
def page (limit offset : Nat) (l : List α) : List α := (l.drop offset).take limit

/-- The offsets `0, limit, 2 * limit, …` below `total`. -/
def offsets (limit total : Nat) : List Nat :=
  ((List.range total).map (limit * ·)).filter (· < total)

/-- How many elements of `l` come before `x` in every order. -/
def before (key : α → κ) (l : List α) (x : α) : Nat := l.countP fun y => key x < key y

/-- How many elements of `l` have the key of `x`. -/
def ties (key : α → κ) (l : List α) (x : α) : Nat := l.countP fun y => key y = key x

/-- Elements with equal keys are on one page. -/
def TiesTogether (key : α → κ) (l : List α) (limit : Nat) : Prop :=
  ∀ x ∈ l, before key l x / limit = (before key l x + ties key l x - 1) / limit

instance (key : α → κ) (l : List α) (limit : Nat) : Decidable (TiesTogether key l limit) :=
  inferInstanceAs (Decidable (∀ x ∈ l, _))

/-! ## Positions -/

theorem mem_offsets {total offset : Nat} (positive : 0 < limit) :
    offset ∈ offsets limit total ↔ ∃ j, offset = limit * j ∧ limit * j < total := by
  simp only [offsets, List.mem_filter, List.mem_map, List.mem_range, decide_eq_true_eq]
  constructor
  · rintro ⟨⟨j, -, rfl⟩, small⟩
    exact ⟨j, rfl, small⟩
  · rintro ⟨j, rfl, small⟩
    exact ⟨⟨j, lt_of_le_of_lt (Nat.le_mul_of_pos_left j positive) small, rfl⟩, small⟩

theorem nodup_offsets {total : Nat} (positive : 0 < limit) : (offsets limit total).Nodup :=
  (List.nodup_range.map fun _ _ h => Nat.eq_of_mul_eq_mul_left positive h).filter _

theorem mem_page {j : Nat} (positive : 0 < limit) :
    x ∈ page limit (limit * j) l ↔ ∃ i, ∃ h : i < l.length, l[i] = x ∧ i / limit = j := by
  rw [page, List.mem_take_iff_getElem]
  constructor
  · rintro ⟨i, small, rfl⟩
    rw [List.length_drop, Nat.lt_min] at small
    refine ⟨limit * j + i, by omega, by rw [List.getElem_drop], ?_⟩
    rw [Nat.mul_add_div positive, Nat.div_eq_of_lt small.1, Nat.add_zero]
  · rintro ⟨i, small, rfl, rfl⟩
    have split := Nat.div_add_mod i limit
    have rest := Nat.mod_lt i positive
    refine ⟨i % limit, by rw [List.length_drop, Nat.lt_min]; omega, ?_⟩
    rw [List.getElem_drop]
    simp only [split]

/-- In every order an element stands among its ties, behind the elements with larger keys. -/
theorem Sorts.position (h : Sorts key l order) {i : Nat} (small : i < order.length) :
    before key l order[i] ≤ i ∧ i < before key l order[i] + ties key l order[i] := by
  have split : order = order.take i ++ order[i] :: order.drop (i + 1) := by simp
  generalize order[i] = x at split ⊢
  have length : (order.take i).length = i := List.length_take_of_le small.le
  generalize order.take i = u at split length
  generalize order.drop (i + 1) = v at split
  subst split
  obtain ⟨-, tail, across⟩ := List.pairwise_append.1 h.sorted
  have later : v.countP (fun y => key x < key y) = 0 :=
    List.countP_eq_zero.2 fun y hy => by simpa using (List.pairwise_cons.1 tail).1 y hy
  have earlier : u.length = u.countP (fun y => key x < key y) +
      u.countP (fun y => key y = key x) := by
    rw [List.length_eq_countP_add_countP (fun y => decide (key x < key y))]
    refine congrArg _ (List.countP_congr fun y hy => ?_)
    have le := across y hy x List.mem_cons_self
    simpa using ⟨fun h => le_antisymm h le, le_of_eq⟩
  rw [before, ties, ← h.perm.countP_eq, ← h.perm.countP_eq]
  simp only [List.countP_append, List.countP_cons, later, lt_irrefl, decide_false,
    decide_true, if_true]
  constructor <;> simp <;> omega

/-! ## Exact pages -/

/-- Where ties are together, the page of an element is the same in every order. -/
theorem TiesTogether.mem_page (together : TiesTogether key l limit) (positive : 0 < limit)
    (h : Sorts key l order) {j : Nat} :
    x ∈ page limit (limit * j) order ↔ x ∈ l ∧ before key l x / limit = j := by
  have place : ∀ {i} (small : i < order.length), i / limit = before key l order[i] / limit := by
    intro i small
    obtain ⟨first, last⟩ := h.position small
    have same := together order[i] (h.perm.mem_iff.1 (List.getElem_mem small))
    exact le_antisymm (same ▸ Nat.div_le_div_right (by omega)) (Nat.div_le_div_right first)
  rw [Store.mem_page positive, ← h.perm.mem_iff, List.mem_iff_getElem]
  constructor
  · rintro ⟨i, small, rfl, rfl⟩
    exact ⟨⟨i, small, rfl⟩, (place small).symm⟩
  · rintro ⟨⟨i, small, rfl⟩, rfl⟩
    exact ⟨i, small, rfl, place small⟩

theorem before_lt_length (hx : x ∈ l) : before key l x < l.length := by
  refine lt_of_le_of_ne List.countP_le_length fun all => ?_
  have := (List.countP_eq_length.1 all) x hx
  simp at this

/-- The pages, each in an order of its own, list every element exactly once. -/
theorem TiesTogether.perm (together : TiesTogether key l limit) (positive : 0 < limit)
    (nodup : l.Nodup) {orders : Nat → List α} (h : ∀ offset, Sorts key l (orders offset)) :
    ((offsets limit l.length).flatMap fun offset => page limit offset (orders offset)).Perm l := by
  refine (List.perm_ext_iff_of_nodup ?_ nodup).2 fun x => ?_
  · refine List.nodup_flatMap.2 ⟨fun offset _ => ?_, ?_⟩
    · exact ((h offset).perm.nodup_iff.2 nodup).sublist
        ((List.take_sublist _ _).trans (List.drop_sublist _ _))
    · refine (List.Nodup.pairwise_of_forall_ne (nodup_offsets positive))
        fun a ha b hb other x hxa hxb => other ?_
      obtain ⟨i, rfl, -⟩ := (mem_offsets positive).1 ha
      obtain ⟨j, rfl, -⟩ := (mem_offsets positive).1 hb
      have own := ((together.mem_page positive (h _)).1 hxa).2
      rw [← own, ((together.mem_page positive (h _)).1 hxb).2]
  · rw [List.mem_flatMap]
    constructor
    · rintro ⟨offset, -, hx⟩
      exact (h offset).perm.mem_iff.1 (List.mem_of_mem_drop (List.mem_of_mem_take hx))
    · intro hx
      refine ⟨limit * (before key l x / limit), (mem_offsets positive).2 ⟨_, rfl, ?_⟩, ?_⟩
      · exact lt_of_le_of_lt (Nat.mul_div_le _ _) (before_lt_length hx)
      · exact (together.mem_page positive (h _)).2 ⟨hx, rfl⟩

/-! ## Torn ties -/

theorem exists_sorts (key : α → κ) (l : List α) : ∃ order, Sorts key l order := by
  refine ⟨l.mergeSort fun x y => key y ≤ key x, List.mergeSort_perm _ _, ?_⟩
  have sorted : (l.mergeSort fun x y => key y ≤ key x).Pairwise fun x y =>
      decide (key y ≤ key x) = true :=
    List.pairwise_mergeSort (fun a b c hab hbc => by simp_all; exact hbc.trans hab)
      (fun a b => by simpa using le_total (key b) (key a)) l
  exact sorted.imp fun h => by simpa using h

theorem before_add_ties (key : α → κ) (l : List α) (x : α) :
    before key l x + ties key l x = l.countP fun y => key x ≤ key y := by
  induction l with
  | nil => rfl
  | cons y l ih =>
    simp only [before, ties, List.countP_cons] at ih ⊢
    rcases lt_trichotomy (key x) (key y) with h | h | h
    · simp only [h, h.le, h.ne', decide_true, decide_false, if_true]
      simp
      omega
    · simp only [← h, lt_irrefl, le_refl, decide_true, decide_false, if_true]
      simp
      omega
    · simp only [h.not_gt, h.not_ge, h.ne, decide_false]
      simpa using ih

/-- All that stands among the ties of `x` is one of them. -/
theorem Sorts.key_eq (h : Sorts key l order) {i : Nat} (small : i < order.length)
    (first : before key l x ≤ i) (last : i < before key l x + ties key l x) :
    key order[i] = key x := by
  have earlier : ∀ {y z : α}, key y < key z → before key l z + ties key l z ≤ before key l y := by
    intro y z lt
    rw [before_add_ties]
    exact List.countP_mono_left fun w _ le => by simp_all; exact lt.trans_le le
  obtain ⟨first', last'⟩ := h.position small
  rcases lt_trichotomy (key order[i]) (key x) with lt | eq | gt
  · have := earlier lt
    omega
  · exact eq
  · have := earlier gt
    omega

/-- Neighbours with equal keys can change places. -/
theorem Sorts.swap (h : Sorts key l (u ++ a :: b :: v)) (same : key a = key b) :
    Sorts key l (u ++ b :: a :: v) where
  perm := (List.Perm.append_left u (.swap a b v)).trans h.perm
  sorted := by
    have sorted := h.sorted
    simp only [List.pairwise_append, List.pairwise_cons, List.mem_cons,
      forall_eq_or_imp] at sorted ⊢
    obtain ⟨head, ⟨⟨-, ha⟩, hb, tail⟩, across⟩ := sorted
    exact ⟨head, ⟨⟨same.le, hb⟩, ha, tail⟩,
      fun x hx => let ⟨xa, xb, rest⟩ := across x hx; ⟨xb, xa, rest⟩⟩

theorem not_nodup_flatMap {β : Type} {bs : List β} {f : β → List α} {b c : β} (hb : b ∈ bs)
    (hc : c ∈ bs) (other : b ≠ c) (first : x ∈ f b) (second : x ∈ f c) :
    ¬ (bs.flatMap f).Nodup := by
  intro nodup
  have disjoint := (List.nodup_flatMap.1 nodup).2
  have : Std.Symm (Function.onFun List.Disjoint f) := ⟨fun _ _ h _ hb ha => h ha hb⟩
  exact disjoint.forall hb hc other first second

/-- Two neighbours with equal keys on both sides of a page boundary: where they change places for
the second of the two pages, one of them is on both. -/
theorem Sorts.twice (h : Sorts key l (u ++ a :: b :: v)) (same : key a = key b) {j : Nat}
    (positive : 0 < limit) (boundary : limit * (j + 1) = u.length + 1) :
    ∃ orders : Nat → List α, (∀ offset, Sorts key l (orders offset)) ∧
      ¬ ((offsets limit l.length).flatMap fun offset =>
        page limit offset (orders offset)).Nodup := by
  have length : u.length + v.length + 2 = l.length := by
    rw [← h.perm.length_eq]
    simp
    omega
  have next : limit * (j + 1) = limit * j + limit := Nat.mul_succ limit j
  have other : limit * j ≠ limit * (j + 1) := by omega
  refine ⟨fun offset => if offset = limit * (j + 1) then u ++ b :: a :: v else u ++ a :: b :: v,
    fun offset => ?_, not_nodup_flatMap (x := a) ((mem_offsets positive).2 ⟨j, rfl, by omega⟩)
      ((mem_offsets positive).2 ⟨j + 1, rfl, by omega⟩) other ?_ ?_⟩
  · dsimp only
    split
    · exact h.swap same
    · exact h
  · dsimp only
    rw [if_neg other, mem_page positive]
    refine ⟨u.length, by simp, by simp, ?_⟩
    exact Nat.div_eq_of_lt_le (by rw [Nat.mul_comm]; omega) (by rw [Nat.mul_comm]; omega)
  · dsimp only
    rw [if_pos rfl, mem_page positive]
    refine ⟨u.length + 1, by simp, by simp [List.getElem_append_right], ?_⟩
    rw [← boundary, Nat.mul_div_cancel_left _ positive]

/-- Where ties are torn apart, some choice of orders lists an element twice. -/
theorem exists_twice (positive : 0 < limit) (torn : ¬ TiesTogether key l limit) :
    ∃ orders : Nat → List α, (∀ offset, Sorts key l (orders offset)) ∧
      ¬ ((offsets limit l.length).flatMap fun offset =>
        page limit offset (orders offset)).Nodup := by
  simp only [TiesTogether, not_forall] at torn
  obtain ⟨x, hx, torn⟩ := torn
  obtain ⟨order, sorts⟩ := exists_sorts key l
  have length := sorts.perm.length_eq
  have total : before key l x + ties key l x ≤ l.length :=
    before_add_ties key l x ▸ List.countP_le_length
  -- The boundary behind the page of the first tie has a tie on both sides.
  obtain ⟨j, hj⟩ : ∃ j, before key l x / limit = j := ⟨_, rfl⟩
  have start : before key l x < limit * (j + 1) := hj ▸ Nat.lt_mul_div_succ _ positive
  have inside : limit * (j + 1) ≤ before key l x + ties key l x - 1 := by
    have some_tie : 0 < ties key l x := List.countP_pos_iff.2 ⟨x, hx, by simp⟩
    have le : j ≤ (before key l x + ties key l x - 1) / limit :=
      hj ▸ Nat.div_le_div_right (by omega)
    rw [Nat.mul_comm]
    exact (Nat.le_div_iff_mul_le positive).1 (Nat.succ_le_of_lt (lt_of_le_of_ne le (hj ▸ torn)))
  obtain ⟨m, hm⟩ : ∃ m, limit * (j + 1) = m + 1 := ⟨limit * (j + 1) - 1, by omega⟩
  have small : m + 1 < order.length := by omega
  have split : order = order.take m ++ order[m] :: order[m + 1] :: order.drop (m + 2) := by simp
  have same : key order[m] = key order[m + 1] := by
    rw [sorts.key_eq (x := x) _ (by omega) (by omega),
      sorts.key_eq (x := x) _ (by omega) (by omega)]
  exact (split ▸ sorts).twice same positive (by rw [hm, List.length_take_of_le (by omega)])

/-- The pages are exact for every choice of orders if and only if no ties are torn apart. -/
theorem pages_exact_iff (positive : 0 < limit) (nodup : l.Nodup) :
    (∀ orders : Nat → List α, (∀ offset, Sorts key l (orders offset)) →
      ((offsets limit l.length).flatMap fun offset => page limit offset (orders offset)).Perm l) ↔
    TiesTogether key l limit := by
  refine ⟨fun exact_ => ?_, fun together orders h => together.perm positive nodup h⟩
  by_contra torn
  obtain ⟨orders, h, twice⟩ := exists_twice positive torn
  exact twice ((exact_ orders h).nodup_iff.2 nodup)

end RecoverAI.Store
