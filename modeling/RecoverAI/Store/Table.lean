import Mathlib.Data.List.Nodup
import Mathlib.Data.List.Perm.Subperm

/-!
# Keyed tables

A table is a list of rows that carries the uniqueness of its primary key as a field. `put` inserts
a row or replaces the row with the same key. Membership of `put` is the law every later proof uses;
lookups, searches and counts are read off the row list.
-/
namespace RecoverAI.Store

/-- A row type with a primary key. -/
class Keyed (ρ : Type) (κ : outParam Type) where
  key : ρ → κ

export Keyed (key)

structure Table (ρ : Type) {κ : Type} [Keyed ρ κ] where
  rows : List ρ
  nodup : (rows.map key).Nodup

namespace Table

variable {ρ κ : Type} [Keyed ρ κ]

instance : Membership ρ (Table ρ) := ⟨fun t r => r ∈ t.rows⟩

theorem mem_rows {t : Table ρ} {r : ρ} : r ∈ t.rows ↔ r ∈ t := Iff.rfl

instance {t : Table ρ} {p : ρ → Prop} [DecidablePred p] : Decidable (∀ r ∈ t, p r) :=
  inferInstanceAs (Decidable (∀ r ∈ t.rows, p r))

@[ext] theorem ext {t u : Table ρ} (h : t.rows = u.rows) : t = u := by
  cases t; cases u; simpa using h

def empty : Table ρ := ⟨[], List.nodup_nil⟩

instance : Inhabited (Table ρ) := ⟨empty⟩

@[simp] theorem not_mem_empty (r : ρ) : ¬ r ∈ (empty : Table ρ) := List.not_mem_nil

/-- The primary key determines the row. -/
theorem eq_of_key {t : Table ρ} {r s : ρ} (hr : r ∈ t) (hs : s ∈ t) (h : key r = key s) : r = s :=
  List.inj_on_of_nodup_map t.nodup hr hs h

/-! ## Searches and counts -/

/-- The first row that satisfies `p`. -/
def find (t : Table ρ) (p : ρ → Bool) : Option ρ := t.rows.find? p

theorem mem_of_find {t : Table ρ} {p : ρ → Bool} {r : ρ} (h : t.find p = some r) :
    r ∈ t ∧ p r = true :=
  ⟨List.mem_of_find?_eq_some h, List.find?_some h⟩

theorem find_eq_none {t : Table ρ} {p : ρ → Bool} : t.find p = none ↔ ∀ r ∈ t, p r = false := by
  simp [find, List.find?_eq_none, mem_rows]

/-- Where at most one row satisfies `p`, the search finds exactly that row. -/
theorem find_eq_some_of_unique {t : Table ρ} {p : ρ → Bool} {r : ρ} (hr : r ∈ t) (hp : p r = true)
    (unique : ∀ x ∈ t, p x = true → x = r) : t.find p = some r := by
  cases h : t.find p with
  | none => exact absurd hp (by simp [find_eq_none.1 h r hr])
  | some x =>
    obtain ⟨hx, hpx⟩ := mem_of_find h
    rw [unique x hx hpx]

/-- `SELECT count(*)`. -/
def count (t : Table ρ) (p : ρ → Bool) : Nat := t.rows.countP p

theorem count_congr {t : Table ρ} {p q : ρ → Bool} (h : ∀ r ∈ t, p r = q r) :
    t.count p = t.count q :=
  List.countP_congr fun r hr => by rw [h r hr]

/-- Rows that come from as many others are no more than these. -/
theorem count_le_count {t u : Table ρ} {p q : ρ → Bool}
    (h : ∀ r ∈ t, p r = true → ∃ s ∈ u, key s = key r ∧ q s = true) : t.count p ≤ u.count q := by
  have sub : ((t.rows.filter p).map key).Subset ((u.rows.filter q).map key) := by
    intro k hk
    obtain ⟨r, hr, rfl⟩ := List.mem_map.1 hk
    obtain ⟨hr, hp⟩ := List.mem_filter.1 hr
    obtain ⟨s, hs, same, hq⟩ := h r hr hp
    exact List.mem_map.2 ⟨s, List.mem_filter.2 ⟨hs, hq⟩, same⟩
  have nodup : ((t.rows.filter p).map key).Nodup := t.nodup.sublist (List.filter_sublist.map key)
  have length := (List.subperm_of_subset nodup sub).length_le
  simpa [count, List.countP_eq_length_filter] using length

def filter (t : Table ρ) (p : ρ → Bool) : List ρ := t.rows.filter p

theorem mem_filter {t : Table ρ} {p : ρ → Bool} {r : ρ} : r ∈ t.filter p ↔ r ∈ t ∧ p r = true :=
  List.mem_filter

/-! ## Writes -/

variable [DecidableEq κ]

/-- Replace the row with the same key, or append. -/
def upsert (r : ρ) : List ρ → List ρ
  | [] => [r]
  | x :: xs => if key x = key r then r :: xs else x :: upsert r xs

theorem key_mem_upsert (r : ρ) (l : List ρ) (k : κ) :
    k ∈ (upsert r l).map key ↔ k = key r ∨ k ∈ l.map key := by
  induction l with
  | nil => simp [upsert]
  | cons x xs ih =>
    by_cases h : key x = key r
    · simp [upsert, h]
    · simp only [upsert, if_neg h, List.map_cons, List.mem_cons, ih]
      tauto

theorem nodup_upsert (r : ρ) {l : List ρ} (h : (l.map key).Nodup) :
    ((upsert r l).map key).Nodup := by
  induction l with
  | nil => simp [upsert]
  | cons x xs ih =>
    simp only [List.map_cons, List.nodup_cons] at h
    by_cases hx : key x = key r
    · rw [upsert, if_pos hx, List.map_cons, List.nodup_cons]
      exact ⟨hx ▸ h.1, h.2⟩
    · simp only [upsert, if_neg hx, List.map_cons, List.nodup_cons, key_mem_upsert]
      exact ⟨fun hm => hm.elim hx h.1, ih h.2⟩

theorem mem_upsert {r x : ρ} {l : List ρ} (h : (l.map key).Nodup) :
    x ∈ upsert r l ↔ x = r ∨ x ∈ l ∧ key x ≠ key r := by
  induction l with
  | nil => simp [upsert]
  | cons y ys ih =>
    simp only [List.map_cons, List.nodup_cons] at h
    by_cases hy : key y = key r
    · have other : ∀ z ∈ ys, key z ≠ key r := fun z hz hk =>
        h.1 (hy ▸ hk ▸ List.mem_map_of_mem hz)
      simp only [upsert, if_pos hy, List.mem_cons]
      refine ⟨fun hx => hx.imp_right fun hm => ⟨.inr hm, other x hm⟩, ?_⟩
      rintro (rfl | ⟨rfl | hm, hk⟩)
      · exact .inl rfl
      · exact absurd hy hk
      · exact .inr hm
    · simp only [upsert, if_neg hy, List.mem_cons, ih h.2]
      refine ⟨?_, ?_⟩
      · rintro (rfl | rfl | ⟨hm, hk⟩)
        · exact .inr ⟨.inl rfl, hy⟩
        · exact .inl rfl
        · exact .inr ⟨.inr hm, hk⟩
      · rintro (rfl | ⟨rfl | hm, hk⟩)
        · exact .inr (.inl rfl)
        · exact .inl rfl
        · exact .inr (.inr ⟨hm, hk⟩)

def put (t : Table ρ) (r : ρ) : Table ρ := ⟨upsert r t.rows, nodup_upsert r t.nodup⟩

@[simp] theorem mem_put {t : Table ρ} {r x : ρ} :
    x ∈ t.put r ↔ x = r ∨ x ∈ t ∧ key x ≠ key r := mem_upsert t.nodup

theorem upsert_of_free {r : ρ} {l : List ρ} (free : ∀ x ∈ l, key x ≠ key r) :
    upsert r l = l ++ [r] := by
  induction l with
  | nil => rfl
  | cons x xs ih =>
    rw [upsert, if_neg (free x (List.mem_cons_self ..)),
      ih fun y hy => free y (List.mem_cons_of_mem x hy)]
    rfl

/-- A new row counts by itself. -/
theorem count_put_of_free {t : Table ρ} {r : ρ} (free : ∀ x ∈ t, key x ≠ key r) (p : ρ → Bool) :
    (t.put r).count p = t.count p + if p r then 1 else 0 := by
  have rows : (t.put r).rows = t.rows ++ [r] := upsert_of_free free
  rw [count, rows, List.countP_append, List.countP_singleton, count]

/-- A new row comes last. -/
theorem filter_put_of_free {t : Table ρ} {r : ρ} (free : ∀ x ∈ t, key x ≠ key r) (p : ρ → Bool) :
    (t.put r).filter p = t.filter p ++ if p r then [r] else [] := by
  have rows : (t.put r).rows = t.rows ++ [r] := upsert_of_free free
  rw [filter, rows, List.filter_append, List.filter_singleton, filter, Bool.cond_eq_ite]

/-- Write several rows, the first one first. -/
def putAll (t : Table ρ) (rs : List ρ) : Table ρ := rs.foldl put t

@[simp] theorem putAll_nil (t : Table ρ) : t.putAll [] = t := rfl
@[simp] theorem putAll_cons (t : Table ρ) (r : ρ) (rs : List ρ) :
    t.putAll (r :: rs) = (t.put r).putAll rs := rfl

/-! ## Lookups -/

def get (t : Table ρ) (k : κ) : Option ρ := t.rows.find? (fun r => key r = k)

theorem get_eq_some {t : Table ρ} {k : κ} {r : ρ} : t.get k = some r ↔ r ∈ t ∧ key r = k := by
  constructor
  · intro h
    have found := mem_of_find (t := t) h
    exact ⟨found.1, by simpa using found.2⟩
  · rintro ⟨hr, rfl⟩
    refine find_eq_some_of_unique hr (by simp) fun x hx hk => eq_of_key hx hr (by simpa using hk)

theorem get_eq_none {t : Table ρ} {k : κ} : t.get k = none ↔ ∀ r ∈ t, key r ≠ k := by
  simp [get, List.find?_eq_none, mem_rows]

theorem get_of_mem {t : Table ρ} {r : ρ} (h : r ∈ t) : t.get (key r) = some r :=
  get_eq_some.2 ⟨h, rfl⟩

theorem get_put (t : Table ρ) (r : ρ) (k : κ) :
    (t.put r).get k = if k = key r then some r else t.get k := by
  by_cases h : k = key r
  · subst h
    simp [get_eq_some]
  · rw [if_neg h]
    cases hg : t.get k with
    | none =>
      rw [get_eq_none] at hg ⊢
      intro x hx
      rcases mem_put.1 hx with rfl | ⟨hm, _⟩
      · exact fun e => h e.symm
      · exact hg x hm
    | some s =>
      obtain ⟨hs, rfl⟩ := get_eq_some.1 hg
      exact get_of_mem (mem_put.2 (.inr ⟨hs, h⟩))

@[simp] theorem get_put_self (t : Table ρ) (r : ρ) : (t.put r).get (key r) = some r := by
  simp [get_put]

/-- The later of two writes of a row is the one that counts. -/
theorem put_put (t : Table ρ) {r s : ρ} (h : key r = key s) : (t.put r).put s = t.put s := by
  have upserts : ∀ l : List ρ, upsert s (upsert r l) = upsert s l := by
    intro l
    induction l with
    | nil => simp [upsert, h]
    | cons x xs ih =>
      by_cases hx : key x = key r
      · simp [upsert, hx, h]
      · have hs : key x ≠ key s := h ▸ hx
        simp [upsert, hx, hs, ih]
  exact ext (upserts t.rows)

theorem putAll_append (t : Table ρ) (rs ss : List ρ) :
    t.putAll (rs ++ ss) = (t.putAll rs).putAll ss := List.foldl_append

theorem mem_or_of_mem_putAll {t : Table ρ} {rs : List ρ} {x : ρ} (h : x ∈ t.putAll rs) :
    x ∈ rs ∨ x ∈ t := by
  induction rs generalizing t with
  | nil => exact .inr h
  | cons r rs ih =>
    rcases ih h with hx | hx
    · exact .inl (List.mem_cons_of_mem r hx)
    · rcases mem_put.1 hx with rfl | ⟨hx, -⟩
      · exact .inl (List.mem_cons_self ..)
      · exact .inr hx

/-- A row that was not written was there before, and no write replaced it. -/
theorem kept_of_mem_putAll {t : Table ρ} {rs : List ρ} {x : ρ} (h : x ∈ t.putAll rs)
    (unwritten : x ∉ rs) : x ∈ t ∧ ∀ r ∈ rs, key r ≠ key x := by
  induction rs generalizing t with
  | nil => exact ⟨h, fun r hr => absurd hr List.not_mem_nil⟩
  | cons r rs ih =>
    rw [List.mem_cons, not_or] at unwritten
    obtain ⟨hx, free⟩ := ih h unwritten.2
    obtain ⟨hx, other⟩ := (mem_put.1 hx).resolve_left unwritten.1
    exact ⟨hx, fun r' hr' => (List.mem_cons.1 hr').elim (fun e => e ▸ other.symm) (free r')⟩

theorem mem_putAll_of_free {t : Table ρ} {rs : List ρ} {x : ρ} (h : x ∈ t)
    (free : ∀ r ∈ rs, key r ≠ key x) : x ∈ t.putAll rs := by
  induction rs generalizing t with
  | nil => exact h
  | cons r rs ih =>
    exact ih (mem_put.2 (.inr ⟨h, (free r (List.mem_cons_self ..)).symm⟩))
      fun r' hr' => free r' (List.mem_cons_of_mem r hr')

/-- No write removes a key. -/
theorem exists_mem_putAll {t : Table ρ} {x : ρ} (h : x ∈ t) (rs : List ρ) :
    ∃ y ∈ t.putAll rs, key y = key x := by
  induction rs generalizing t x with
  | nil => exact ⟨x, h, rfl⟩
  | cons r rs ih =>
    by_cases hk : key x = key r
    · exact hk ▸ ih (mem_put.2 (.inl rfl))
    · exact ih (mem_put.2 (.inr ⟨h, hk⟩))

/-- The last row written is there. -/
theorem get_putAll_of_getLast? {t : Table ρ} {rs : List ρ} {r : ρ} (h : rs.getLast? = some r) :
    (t.putAll rs).get (key r) = some r := by
  obtain ⟨ss, rfl⟩ := List.getLast?_eq_some_iff.1 h
  simp [putAll_append]

/-- Of rows with different keys each one that was written is there. -/
theorem mem_putAll_of_mem {t : Table ρ} {rs : List ρ} {r : ρ} (nodup : (rs.map key).Nodup)
    (h : r ∈ rs) : r ∈ t.putAll rs := by
  induction rs generalizing t with
  | nil => cases h
  | cons x rs ih =>
    rw [List.map_cons, List.nodup_cons] at nodup
    rcases List.mem_cons.1 h with rfl | later
    · refine mem_putAll_of_free (t := t.put r) (mem_put.2 (.inl rfl)) fun y hy same => nodup.1 ?_
      exact same ▸ List.mem_map_of_mem hy
    · exact ih nodup.2 later

/-! ## Rows that stay -/

/-- Every row of `t` is still there in `u`, up to `S`. -/
def Extends (S : ρ → ρ → Prop) (t u : Table ρ) : Prop := ∀ r ∈ t, ∃ r' ∈ u, S r r'

omit [DecidableEq κ] in
theorem Extends.trans {S : ρ → ρ → Prop} (hS : ∀ {a b c}, S a b → S b c → S a c) {t u v : Table ρ}
    (h : t.Extends S u) (h' : u.Extends S v) : t.Extends S v := fun r hr =>
  let ⟨s, hs, hrs⟩ := h r hr
  let ⟨w, hw, hsw⟩ := h' s hs
  ⟨w, hw, hS hrs hsw⟩

/-- The writes `rs` agree with the rows of `t` that they replace. -/
def Agrees (S : ρ → ρ → Prop) (t : Table ρ) (rs : List ρ) : Prop :=
  ∀ r' ∈ rs, ∀ r, t.get (key r') = some r → S r r'

@[simp] theorem agrees_nil (S : ρ → ρ → Prop) (t : Table ρ) : t.Agrees S [] :=
  fun _ h => absurd h List.not_mem_nil

theorem agrees_of_absent {S : ρ → ρ → Prop} {t : Table ρ} {rs : List ρ}
    (h : ∀ r ∈ rs, t.get (key r) = none) : t.Agrees S rs := fun r' hr' r hr => by
  rw [h r' hr'] at hr
  cases hr

theorem agrees_single {S : ρ → ρ → Prop} {t : Table ρ} {r r' : ρ} (hr : r ∈ t) (hk : key r' = key r)
    (h : S r r') : t.Agrees S [r'] := fun x hx y hy => by
  obtain rfl := List.mem_singleton.1 hx
  obtain ⟨hy, hky⟩ := get_eq_some.1 hy
  exact eq_of_key hr hy (hk.symm.trans hky.symm) ▸ h

/-- Writes that agree with the rows they replace keep every row. -/
theorem Agrees.extends {S : ρ → ρ → Prop} (hS : ∀ r, S r r) {t : Table ρ} {rs : List ρ}
    (agree : t.Agrees S rs) : t.Extends S (t.putAll rs) := by
  intro r hr
  obtain ⟨y, hy, hk⟩ := exists_mem_putAll hr rs
  refine ⟨y, hy, ?_⟩
  rcases mem_or_of_mem_putAll hy with written | old
  · exact agree y written r (hk ▸ get_of_mem hr)
  · exact eq_of_key old hr hk ▸ hS _

end Table

end RecoverAI.Store
