import Mathlib.Algebra.Order.Ring.Nat
import Mathlib.Data.List.Pairwise
import Mathlib.Order.Defs.Unbundled
import Mathlib.Order.Lattice
import Mathlib.Tactic.Common

/-!
# Library.LevelMap

Ordered maps of queues: a finite map from keys to non-empty lists, kept as a list of
levels in ascending key order and searched with the key order alone.

The operations compare keys only with `<`, as a comparator-based tree map does: two keys
neither of which is below the other are taken for equal. The general results therefore
ask for a strict order only; where the keys of a map are *exact* (every element's own key
is the key of its level) the usual laws of a sorted map follow.

* `find?`, `pushBack`, `remove`: look a level up, append to it, filter it (dropping it
  when it becomes empty);
* `up`, `down`: all elements, lowest level first or highest level first, each level in
  queue order;
* `WF`: levels in strict order, none empty, every element in a level its key selects.
-/

namespace LevelMap

universe u v w

variable {K : Type u} {β : Type v} {γ : Type w}

/-! ### Operations -/

section Operations

variable [LT K] [DecidableLT K]

/-- The level that `k` selects: the first one not below `k`, unless `k` is below it. -/
def find? (k : K) : List (K × List β) → Option (List β)
  | [] => none
  | (k', q) :: m => if k' < k then find? k m else if k < k' then none else some q

/-- Append `x` to the level that `k` selects, which is created when there is none. -/
def pushBack (k : K) (x : β) : List (K × List β) → List (K × List β)
  | [] => [(k, [x])]
  | (k', q) :: m =>
    if k' < k then (k', q) :: pushBack k x m
    else if k < k' then (k, [x]) :: (k', q) :: m
    else (k', q ++ [x]) :: m

/-- Put a level in front of a map, unless it is empty. -/
def consLevel (k : K) (q : List β) (m : List (K × List β)) : List (K × List β) :=
  if q.isEmpty then m else (k, q) :: m

/-- Take the elements that satisfy `p` out of the level that `k` selects. -/
def remove (k : K) (p : β → Bool) : List (K × List β) → List (K × List β)
  | [] => []
  | (k', q) :: m =>
    if k' < k then (k', q) :: remove k p m
    else if k < k' then (k', q) :: m
    else consLevel k' (q.filter fun x => !p x) m

end Operations

/-- Take the elements that satisfy `p` out of every level. -/
def erase (p : β → Bool) (m : List (K × List β)) : List (K × List β) :=
  (m.map fun l => (l.1, l.2.filter fun x => !p x)).filter fun l => !l.2.isEmpty

/-- Rename the elements of a map. -/
def mapElems (f : β → γ) (m : List (K × List β)) : List (K × List γ) :=
  m.map fun l => (l.1, l.2.map f)

/-- Turn a map over: levels in reverse, keys and elements renamed. -/
def flip (f : K → K) (g : β → γ) (m : List (K × List β)) : List (K × List γ) :=
  (m.map fun l => (f l.1, l.2.map g)).reverse

/-- All elements, lowest level first. -/
def up (m : List (K × List β)) : List β := m.flatMap Prod.snd

/-- All elements, highest level first. -/
def down (m : List (K × List β)) : List β := m.reverse.flatMap Prod.snd

/-- The front of the lowest level. -/
def front (m : List (K × List β)) : Option β := m.head?.bind fun l => l.2.head?

/-- The front of the highest level. -/
def back (m : List (K × List β)) : Option β := m.getLast?.bind fun l => l.2.head?

@[simp] theorem up_nil : up ([] : List (K × List β)) = [] := rfl

@[simp] theorem up_cons (l : K × List β) (m : List (K × List β)) : up (l :: m) = l.2 ++ up m := rfl

@[simp] theorem up_append (m m' : List (K × List β)) : up (m ++ m') = up m ++ up m' := by
  simp [up]

@[simp] theorem down_nil : down ([] : List (K × List β)) = [] := rfl

@[simp] theorem down_cons (l : K × List β) (m : List (K × List β)) :
    down (l :: m) = down m ++ l.2 := by
  simp [down]

@[simp] theorem down_append (m m' : List (K × List β)) :
    down (m ++ m') = down m' ++ down m := by
  simp [down]

@[simp] theorem up_consLevel (k : K) (q : List β) (m : List (K × List β)) :
    up (consLevel k q m) = q ++ up m := by
  cases q <;> simp [consLevel]

@[simp] theorem down_consLevel (k : K) (q : List β) (m : List (K × List β)) :
    down (consLevel k q m) = down m ++ q := by
  cases q <;> simp [consLevel]

theorem mem_consLevel {k : K} {q : List β} {m : List (K × List β)} {l : K × List β} :
    l ∈ consLevel k q m ↔ (l = (k, q) ∧ q ≠ []) ∨ l ∈ m := by
  cases q <;> simp [consLevel]

theorem mem_up {m : List (K × List β)} {x : β} : x ∈ up m ↔ ∃ l ∈ m, x ∈ l.2 := by
  simp [up]

theorem down_perm_up (m : List (K × List β)) : (down m).Perm (up m) := by
  induction m with
  | nil => exact .refl _
  | cons l m ih =>
      rw [down_cons, up_cons]
      exact List.perm_append_comm.trans (ih.append_left _)

theorem mem_down {m : List (K × List β)} {x : β} : x ∈ down m ↔ x ∈ up m :=
  (down_perm_up m).mem_iff

/-! ### Renaming commutes with the operations -/

section MapElems

variable (f : β → γ)

@[simp] theorem mapElems_cons (l : K × List β) (m : List (K × List β)) :
    mapElems f (l :: m) = (l.1, l.2.map f) :: mapElems f m := rfl

theorem up_mapElems (m : List (K × List β)) : up (mapElems f m) = (up m).map f := by
  induction m with
  | nil => rfl
  | cons l m ih => simp [ih]

theorem down_mapElems (m : List (K × List β)) : down (mapElems f m) = (down m).map f := by
  induction m with
  | nil => rfl
  | cons l m ih => simp [ih]

theorem mapElems_congr {f g : β → γ} {m : List (K × List β)} (h : ∀ x ∈ up m, f x = g x) :
    mapElems f m = mapElems g m := by
  refine List.map_congr_left ?_
  intro l hl
  rw [List.map_congr_left fun x hx => h x (mem_up.mpr ⟨l, hl, hx⟩)]

variable [LT K] [DecidableLT K]

theorem find?_mapElems (k : K) (m : List (K × List β)) :
    find? k (mapElems f m) = (find? k m).map (List.map f) := by
  induction m with
  | nil => rfl
  | cons l m ih =>
      simp only [mapElems_cons, find?, ih]
      split
      · rfl
      · split <;> rfl

theorem pushBack_mapElems (k : K) (x : β) (m : List (K × List β)) :
    pushBack k (f x) (mapElems f m) = mapElems f (pushBack k x m) := by
  induction m with
  | nil => rfl
  | cons l m ih =>
      simp only [mapElems_cons, pushBack, ih]
      split
      · rfl
      · split <;> simp

/-- Removal commutes with a renaming that carries one predicate to the other. -/
theorem remove_mapElems (k : K) {p : β → Bool} {q : γ → Bool} {m : List (K × List β)}
    (h : ∀ x ∈ up m, q (f x) = p x) :
    remove k q (mapElems f m) = mapElems f (remove k p m) := by
  induction m with
  | nil => rfl
  | cons l m ih =>
      have hl : (l.2.map f).filter (fun x => !q x) = (l.2.filter fun x => !p x).map f := by
        rw [List.filter_map]
        refine congrArg _ (List.filter_congr ?_)
        intro x hx
        simp [h x (by simp [hx])]
      simp only [mapElems_cons, remove, ih fun x hx => h x (by simp [hx])]
      split
      · rfl
      · split
        · rfl
        · rw [hl]
          cases l.2.filter fun x => !p x <;> simp [consLevel]

end MapElems

/-! ### Shape of the results -/

/-- Nothing is taken out where nothing satisfies `p`. -/
theorem erase_eq_self {p : β → Bool} {m : List (K × List β)} (hm : ∀ l ∈ m, l.2 ≠ [])
    (hp : ∀ x ∈ up m, p x = false) : erase p m = m := by
  have hkeep : ∀ l ∈ m, (l.1, l.2.filter fun x => !p x) = l := by
    intro l hl
    rw [List.filter_eq_self.mpr fun x hx => by simp [hp x (mem_up.mpr ⟨l, hl, hx⟩)]]
  rw [erase, List.map_congr_left hkeep, List.map_id']
  refine List.filter_eq_self.mpr ?_
  intro l hl
  simpa using hm l hl

theorem erase_append (p : β → Bool) (m m' : List (K × List β)) :
    erase p (m ++ m') = erase p m ++ erase p m' := by
  simp [erase]

theorem erase_cons (p : β → Bool) (k : K) (q : List β) (m : List (K × List β)) :
    erase p ((k, q) :: m) = consLevel k (q.filter fun x => !p x) (erase p m) := by
  unfold erase consLevel
  rw [List.map_cons, List.filter_cons]
  dsimp only
  cases (q.filter fun x => !p x).isEmpty <;> rfl

theorem up_erase (p : β → Bool) (m : List (K × List β)) :
    up (erase p m) = (up m).filter fun x => !p x := by
  induction m with
  | nil => rfl
  | cons l m ih => rw [erase_cons, up_consLevel, ih, up_cons, List.filter_append]

theorem down_erase (p : β → Bool) (m : List (K × List β)) :
    down (erase p m) = (down m).filter fun x => !p x := by
  induction m with
  | nil => rfl
  | cons l m ih => rw [erase_cons, down_consLevel, ih, down_cons, List.filter_append]

/-- The levels that are left, and what they come from. -/
theorem mem_erase {p : β → Bool} {m : List (K × List β)} {l : K × List β} :
    l ∈ erase p m ↔ l.2 ≠ [] ∧ ∃ l' ∈ m, l = (l'.1, l'.2.filter fun x => !p x) := by
  rw [erase, List.mem_filter, List.mem_map, and_comm]
  refine and_congr (by simp) (exists_congr fun l' => and_congr_right fun _ => eq_comm)

section Split

variable [LT K] [DecidableLT K]

/-- A successful look-up splits the map at the level found, and `remove` works there. -/
theorem find?_split {k : K} {m : List (K × List β)} {q : List β} (h : find? k m = some q) :
    ∃ lo k' hi, m = lo ++ (k', q) :: hi ∧ (∀ l ∈ lo, l.1 < k) ∧ ¬ k' < k ∧ ¬ k < k' ∧
      ∀ p, remove k p m = lo ++ consLevel k' (q.filter fun x => !p x) hi := by
  induction m with
  | nil => simp [find?] at h
  | cons l m ih =>
      obtain ⟨k₁, q₁⟩ := l
      unfold find? at h
      by_cases h₁ : k₁ < k
      · rw [if_pos h₁] at h
        obtain ⟨lo, k', hi, rfl, hlo, hk, hk', hrem⟩ := ih h
        refine ⟨(k₁, q₁) :: lo, k', hi, rfl, ?_, hk, hk', ?_⟩
        · exact List.forall_mem_cons.mpr ⟨h₁, hlo⟩
        · intro p
          rw [remove, if_pos h₁, hrem]
          rfl
      · rw [if_neg h₁] at h
        by_cases h₂ : k < k₁
        · simp [h₂] at h
        · rw [if_neg h₂] at h
          obtain rfl := Option.some.inj h
          exact ⟨[], k₁, m, rfl, by simp, h₁, h₂,
            fun p => by rw [remove, if_neg h₁, if_neg h₂]; rfl⟩

theorem mem_up_of_find? {k : K} {m : List (K × List β)} {q : List β} (h : find? k m = some q)
    {x : β} (hx : x ∈ q) : x ∈ up m := by
  obtain ⟨lo, k', hi, rfl, -⟩ := find?_split h
  simp [hx]

/-- The map after `pushBack`: one level at or above `k` received the element. -/
theorem pushBack_split (k : K) (x : β) (m : List (K × List β)) :
    ∃ lo k' q hi, pushBack k x m = lo ++ (k', q ++ [x]) :: hi ∧ (∀ l ∈ lo, l.1 < k) ∧
      ((m = lo ++ hi ∧ k' = k ∧ q = [] ∧ ∀ l ∈ hi.head?, k < l.1) ∨
        (m = lo ++ (k', q) :: hi ∧ ¬ k' < k ∧ ¬ k < k')) := by
  induction m with
  | nil => exact ⟨[], k, [], [], rfl, by simp, .inl (by simp)⟩
  | cons l m ih =>
      obtain ⟨k₁, q₁⟩ := l
      unfold pushBack
      by_cases h₁ : k₁ < k
      · rw [if_pos h₁]
        obtain ⟨lo, k', q, hi, hpush, hlo, hcase⟩ := ih
        refine ⟨(k₁, q₁) :: lo, k', q, hi, by rw [hpush]; rfl,
          List.forall_mem_cons.mpr ⟨h₁, hlo⟩, ?_⟩
        rcases hcase with ⟨rfl, hrest⟩ | ⟨rfl, hrest⟩
        · exact .inl ⟨rfl, hrest⟩
        · exact .inr ⟨rfl, hrest⟩
      · rw [if_neg h₁]
        by_cases h₂ : k < k₁
        · rw [if_pos h₂]
          exact ⟨[], k, [], (k₁, q₁) :: m, rfl, by simp, .inl (by simpa using h₂)⟩
        · rw [if_neg h₂]
          exact ⟨[], k₁, q₁, m, rfl, by simp, .inr ⟨rfl, h₁, h₂⟩⟩

theorem remove_of_find?_eq_none {k : K} {m : List (K × List β)} (h : find? k m = none)
    (p : β → Bool) : remove k p m = m := by
  induction m with
  | nil => rfl
  | cons l m ih =>
      obtain ⟨k₁, q₁⟩ := l
      unfold find? at h
      unfold remove
      by_cases h₁ : k₁ < k
      · rw [if_pos h₁] at h ⊢
        rw [ih h]
      · rw [if_neg h₁] at h ⊢
        by_cases h₂ : k < k₁
        · rw [if_pos h₂]
        · simp [h₂] at h

theorem up_pushBack_perm (k : K) (x : β) (m : List (K × List β)) :
    (up (pushBack k x m)).Perm (x :: up m) := by
  obtain ⟨lo, k', q, hi, hpush, -, ⟨rfl, -, rfl, -⟩ | ⟨rfl, -⟩⟩ := pushBack_split k x m
  · rw [hpush]
    simp
  · rw [hpush]
    simp only [up_append, up_cons, List.append_assoc]
    refine List.Perm.trans (.append_left _ ?_) List.perm_middle
    exact List.perm_middle

/-- If only one element satisfies `p`, and the level found holds it, the other levels hold none. -/
theorem find?_split_only {k : K} {p : β → Bool} {m : List (K × List β)} {q : List β}
    (h : find? k m = some q) (hq : q.any p = true)
    (hp : (up m).Pairwise fun x y => ¬ (p x = true ∧ p y = true)) :
    ∃ lo k' hi, m = lo ++ (k', q) :: hi ∧
      remove k p m = lo ++ consLevel k' (q.filter fun x => !p x) hi ∧
      (∀ x ∈ up lo, p x = false) ∧ ∀ x ∈ up hi, p x = false := by
  obtain ⟨lo, k', hi, rfl, -, -, -, hrem⟩ := find?_split h
  obtain ⟨y, hy, hpy⟩ := List.any_eq_true.mp hq
  simp only [up_append, up_cons, List.pairwise_append, List.mem_append] at hp
  refine ⟨lo, k', hi, rfl, hrem p, fun x hx => ?_, fun x hx => ?_⟩
  · simpa [hpy] using hp.2.2 x hx y (.inl hy)
  · simpa [hpy] using hp.2.1.2.2 y hy x hx

/-- Removing the only element that satisfies `p`, which the level found holds, filters
the whole map. -/
theorem up_down_remove {k : K} {p : β → Bool} {m : List (K × List β)} {q : List β}
    (h : find? k m = some q) (hq : q.any p = true)
    (hp : (up m).Pairwise fun x y => ¬ (p x = true ∧ p y = true)) :
    up (remove k p m) = (up m).filter (fun x => !p x) ∧
      down (remove k p m) = (down m).filter fun x => !p x := by
  obtain ⟨lo, k', hi, rfl, hrem, hlo, hhi⟩ := find?_split_only h hq hp
  have keep : ∀ {l : List β}, (∀ x ∈ l, p x = false) → l.filter (fun x => !p x) = l :=
    fun hl => List.filter_eq_self.mpr fun x hx => by simp [hl x hx]
  rw [hrem]
  simp only [up_append, up_consLevel, up_cons, down_append, down_consLevel, down_cons,
    List.filter_append, keep hlo, keep hhi, keep fun x hx => hlo x (mem_down.mp hx),
    keep fun x hx => hhi x (mem_down.mp hx), and_self]

/-- Removing the only element that satisfies `p`, which the level found holds, takes it out of
the whole map. -/
theorem remove_eq_erase {k : K} {p : β → Bool} {m : List (K × List β)} {q : List β}
    (h : find? k m = some q) (hq : q.any p = true) (hm : ∀ l ∈ m, l.2 ≠ [])
    (hp : (up m).Pairwise fun x y => ¬ (p x = true ∧ p y = true)) :
    remove k p m = erase p m := by
  obtain ⟨lo, k', hi, rfl, hrem, hlo, hhi⟩ := find?_split_only h hq hp
  rw [hrem, erase_append, erase_cons, erase_eq_self (fun l hl => hm l (by simp [hl])) hlo,
    erase_eq_self (fun l hl => hm l (by simp [hl])) hhi]

/-- What was appended is found again at the end of its level. -/
theorem find?_pushBack [Std.Irrefl fun a b : K => a < b] (k : K) (x : β) (m : List (K × List β)) :
    ∃ q, find? k (pushBack k x m) = some (q ++ [x]) := by
  have hirrefl : ¬ k < k := Std.Irrefl.irrefl (r := fun a b : K => a < b) k
  induction m with
  | nil => exact ⟨[], by simp [pushBack, find?, hirrefl]⟩
  | cons l m ih =>
      obtain ⟨k₁, q₁⟩ := l
      unfold pushBack
      by_cases h₁ : k₁ < k
      · rw [if_pos h₁, find?, if_pos h₁]
        exact ih
      · rw [if_neg h₁]
        by_cases h₂ : k < k₁
        · rw [if_pos h₂]
          exact ⟨[], by simp [find?, hirrefl]⟩
        · rw [if_neg h₂]
          exact ⟨q₁, by simp [find?, h₁, h₂]⟩

/-- **Taking the appended element out again** restores the map, levels included. -/
theorem remove_pushBack [Std.Irrefl fun a b : K => a < b] (k : K) {x : β} {p : β → Bool}
    {m : List (K × List β)} (hm : ∀ l ∈ m, l.2 ≠ []) (hx : p x = true)
    (hp : ∀ y ∈ up m, p y = false) : remove k p (pushBack k x m) = m := by
  have hirrefl : ¬ k < k := Std.Irrefl.irrefl (r := fun a b : K => a < b) k
  induction m with
  | nil => simp [pushBack, remove, consLevel, hirrefl, hx]
  | cons l m ih =>
      obtain ⟨k₁, q₁⟩ := l
      obtain ⟨hq, hrest⟩ := List.forall_mem_cons.mp hm
      simp only [up_cons, List.mem_append] at hp
      unfold pushBack
      by_cases h₁ : k₁ < k
      · rw [if_pos h₁, remove, if_pos h₁, ih hrest fun y hy => hp y (.inr hy)]
      · rw [if_neg h₁]
        by_cases h₂ : k < k₁
        · rw [if_pos h₂]
          simp [remove, consLevel, hirrefl, hx]
        · -- the level was there before, so what is left of it is not empty
          have hkeep : (q₁ ++ [x]).filter (fun y => !p y) = q₁ := by
            rw [List.filter_append, List.filter_cons_of_neg (by simp [hx]), List.filter_nil,
              List.append_nil]
            exact List.filter_eq_self.mpr fun y hy => by simp [hp y (.inl hy)]
          rw [if_neg h₂, remove, if_neg h₁, if_neg h₂, hkeep, consLevel,
            if_neg (by simpa using hq)]

/-- Removing takes something away if the level found holds an element that satisfies `p`. -/
theorem length_up_remove_lt {k : K} {p : β → Bool} {m : List (K × List β)} {q : List β}
    (h : find? k m = some q) (hq : q.any p = true) :
    (up (remove k p m)).length < (up m).length := by
  obtain ⟨lo, k', hi, rfl, -, -, -, hrem⟩ := find?_split h
  obtain ⟨y, hy, hpy⟩ := List.any_eq_true.mp hq
  have hlt : (q.filter fun x => !p x).length < q.length :=
    List.length_filter_lt_length_iff_exists.mpr ⟨y, hy, by simp [hpy]⟩
  rw [hrem]
  simp only [up_append, up_consLevel, up_cons, List.length_append]
  omega

end Split

/-! ### Well-formed maps -/

/-- A well-formed map: levels in strict key order, none empty, and every element in a
level that its own key selects. -/
structure WF [LT K] (key : β → K) (m : List (K × List β)) : Prop where
  /-- Levels are in strictly ascending order. -/
  sorted : m.Pairwise fun a b => a.1 < b.1
  /-- No level is empty. -/
  nonempty : ∀ l ∈ m, l.2 ≠ []
  /-- An element's key is neither below nor above its level's. -/
  keyed : ∀ l ∈ m, ∀ x ∈ l.2, ¬ l.1 < key x ∧ ¬ key x < l.1

/-- Every element's own key is the key of its level. -/
def Exact (key : β → K) (m : List (K × List β)) : Prop :=
  ∀ l ∈ m, ∀ x ∈ l.2, l.1 = key x

instance [DecidableEq K] (key : β → K) (m : List (K × List β)) : Decidable (Exact key m) :=
  inferInstanceAs (Decidable (∀ l ∈ m, ∀ x ∈ l.2, l.1 = key x))

theorem WF.nil [LT K] (key : β → K) : WF key [] := ⟨.nil, by simp, by simp⟩

theorem Exact.nil (key : β → K) : Exact key [] := by simp [Exact]

/-- A front element exists unless the map is empty, and it is the first element. -/
theorem front_eq_head? {m : List (K × List β)} (h : ∀ l ∈ m, l.2 ≠ []) :
    front m = (up m).head? := by
  cases m with
  | nil => rfl
  | cons l m =>
      obtain ⟨x, q, hq⟩ := List.exists_cons_of_ne_nil (h l (by simp))
      simp [front, hq]

theorem back_eq_head? {m : List (K × List β)} (h : ∀ l ∈ m, l.2 ≠ []) :
    back m = (down m).head? := by
  rcases List.eq_nil_or_concat m with rfl | ⟨m', l, rfl⟩
  · rfl
  · obtain ⟨x, q, hq⟩ := List.exists_cons_of_ne_nil (h l (by simp))
    simp [back, hq]

theorem WF.mapElems [LT K] {key : β → K} {key' : γ → K} {f : β → γ} {m : List (K × List β)}
    (hm : WF key m) (hkey : ∀ x ∈ up m, key' (f x) = key x) : WF key' (mapElems f m) where
  sorted := List.pairwise_map.mpr hm.sorted
  nonempty := by
    simp only [LevelMap.mapElems, List.forall_mem_map]
    exact fun l hl => by simpa using hm.nonempty l hl
  keyed := by
    simp only [LevelMap.mapElems, List.forall_mem_map]
    exact fun l hl x hx => by
      rw [hkey x (mem_up.mpr ⟨l, hl, hx⟩)]
      exact hm.keyed l hl x hx

theorem Exact.mapElems {key : β → K} {key' : γ → K} {f : β → γ} {m : List (K × List β)}
    (hm : Exact key m) (hkey : ∀ x ∈ up m, key' (f x) = key x) : Exact key' (mapElems f m) := by
  simp only [Exact, LevelMap.mapElems, List.forall_mem_map]
  exact fun l hl x hx => by
    rw [hkey x (mem_up.mpr ⟨l, hl, hx⟩)]
    exact hm l hl x hx

section StrictOrder

variable [LT K] [DecidableLT K] [IsStrictOrder K (· < ·)] {key : β → K}

/-- An element's own key always selects some level. -/
theorem WF.find?_isSome {m : List (K × List β)} (hm : WF key m) {x : β} (hx : x ∈ up m) :
    ∃ q, find? (key x) m = some q := by
  obtain ⟨hs, -, hk⟩ := hm
  induction m with
  | nil => simp at hx
  | cons l m ih =>
      obtain ⟨k, q⟩ := l
      unfold find?
      rw [List.pairwise_cons] at hs
      by_cases h₁ : k < key x
      · rw [if_pos h₁]
        refine ih ?_ hs.2 fun l hl => hk l (List.mem_cons_of_mem _ hl)
        rcases List.mem_append.mp hx with hx | hx
        · exact absurd h₁ (hk _ (List.mem_cons_self ..) x hx).1
        · exact hx
      · rw [if_neg h₁]
        by_cases h₂ : key x < k
        · rcases List.mem_append.mp hx with hx | hx
          · exact absurd h₂ (hk _ (List.mem_cons_self ..) x hx).2
          · obtain ⟨l, hl, hxl⟩ := mem_up.mp hx
            have hkl : key x < l.1 := trans_of (· < ·) h₂ (hs.1 l hl)
            exact absurd hkl (hk l (List.mem_cons_of_mem _ hl) x hxl).2
        · exact ⟨q, if_neg h₂⟩

omit [DecidableLT K] in
/-- In a sorted tail whose first level is above `k`, every level is. -/
theorem above_of_head? {k : K} {m : List (K × List β)} (hs : m.Pairwise fun a b => a.1 < b.1)
    (hk : ∀ l ∈ m.head?, k < l.1) : ∀ l ∈ m, k < l.1 := by
  cases m with
  | nil => simp
  | cons l m =>
      have hl : k < l.1 := hk l rfl
      rw [List.pairwise_cons] at hs
      exact List.forall_mem_cons.mpr ⟨hl, fun l' hl' => trans_of (· < ·) hl (hs.1 l' hl')⟩

theorem WF.pushBack {m : List (K × List β)} (hm : WF key m) (x : β) :
    WF key (pushBack (key x) x m) := by
  obtain ⟨lo, k', q, hi, hpush, hlo, hcase⟩ := pushBack_split (key x) x m
  obtain ⟨hs, hn, hk⟩ := hm
  rw [hpush]
  rcases hcase with ⟨rfl, rfl, rfl, hhi⟩ | ⟨rfl, h₁, h₂⟩
  · rw [List.pairwise_append] at hs
    obtain ⟨hnlo, hnhi⟩ := List.forall_mem_append.mp hn
    obtain ⟨hklo, hkhi⟩ := List.forall_mem_append.mp hk
    -- a level of its own, between the lower and the higher ones
    have habove := above_of_head? hs.2.1 hhi
    refine ⟨?_, ?_, ?_⟩
    · rw [List.pairwise_append, List.pairwise_cons]
      exact ⟨hs.1, ⟨habove, hs.2.1⟩,
        fun a ha => List.forall_mem_cons.mpr ⟨hlo a ha, hs.2.2 a ha⟩⟩
    · exact List.forall_mem_append.mpr ⟨hnlo, List.forall_mem_cons.mpr ⟨by simp, hnhi⟩⟩
    · refine List.forall_mem_append.mpr ⟨hklo, List.forall_mem_cons.mpr ⟨fun y hy => ?_, hkhi⟩⟩
      obtain rfl : y = x := by simpa using hy
      exact ⟨irrefl _, irrefl _⟩
  · obtain ⟨hnlo, hnhi⟩ := List.forall_mem_append.mp hn
    obtain ⟨hklo, hkhi⟩ := List.forall_mem_append.mp hk
    rw [List.forall_mem_cons] at hnhi hkhi
    refine ⟨?_, ?_, ?_⟩
    · simpa [List.pairwise_append, List.pairwise_cons] using hs
    · exact List.forall_mem_append.mpr ⟨hnlo, List.forall_mem_cons.mpr ⟨by simp, hnhi.2⟩⟩
    · refine List.forall_mem_append.mpr ⟨hklo, List.forall_mem_cons.mpr ⟨?_, hkhi.2⟩⟩
      refine List.forall_mem_append.mpr ⟨hkhi.1, fun y hy => ?_⟩
      obtain rfl : y = x := List.mem_singleton.mp hy
      exact ⟨h₁, h₂⟩

omit [IsStrictOrder K (· < ·)] in
theorem WF.remove {m : List (K × List β)} (hm : WF key m) (k : K) (p : β → Bool) :
    WF key (remove k p m) := by
  rcases hf : find? k m with _ | q
  · rwa [remove_of_find?_eq_none hf]
  · obtain ⟨lo, k', hi, rfl, -, -, -, hrem⟩ := find?_split hf
    have hsub : ∀ l ∈ consLevel k' (q.filter fun x => !p x) hi,
        l ∈ hi ∨ (l.1 = k' ∧ l.2 ≠ [] ∧ ∀ x ∈ l.2, x ∈ q) := by
      intro l hl
      rcases mem_consLevel.mp hl with ⟨rfl, hne⟩ | hl
      · exact .inr ⟨rfl, hne, fun x hx => (List.mem_filter.mp hx).1⟩
      · exact .inl hl
    obtain ⟨hs, hn, hk⟩ := hm
    rw [hrem]
    refine ⟨?_, ?_, ?_⟩
    · simp only [List.pairwise_append, List.pairwise_cons, List.mem_cons, forall_eq_or_imp] at hs ⊢
      refine ⟨hs.1, ?_, ?_⟩
      · unfold consLevel
        split
        · exact hs.2.1.2
        · exact List.pairwise_cons.mpr hs.2.1
      · intro a ha l hl
        rcases hsub l hl with hl | ⟨hl, -⟩
        · exact (hs.2.2 a ha).2 l hl
        · rw [hl]
          exact (hs.2.2 a ha).1
    · intro l hl
      rcases List.mem_append.mp hl with hl | hl
      · exact hn l (List.mem_append_left _ hl)
      · rcases hsub l hl with hl | ⟨-, hne, -⟩
        · exact hn l (by simp [hl])
        · exact hne
    · intro l hl x hx
      rcases List.mem_append.mp hl with hl | hl
      · exact hk l (List.mem_append_left _ hl) x hx
      · rcases hsub l hl with hl | ⟨hlk, -, hsub⟩
        · exact hk l (by simp [hl]) x hx
        · rw [hlk]
          exact hk (k', q) (by simp) x (hsub x hx)

/-! ### Exact maps -/

omit [IsStrictOrder K (· < ·)] in
theorem Exact.remove {m : List (K × List β)} (hm : Exact key m) (k : K) (p : β → Bool) :
    Exact key (remove k p m) := by
  rcases hf : find? k m with _ | q
  · rwa [remove_of_find?_eq_none hf]
  · obtain ⟨lo, k', hi, rfl, -, -, -, hrem⟩ := find?_split hf
    rw [hrem]
    intro l hl x hx
    rcases List.mem_append.mp hl with hl | hl
    · exact hm l (List.mem_append_left _ hl) x hx
    · rcases mem_consLevel.mp hl with ⟨rfl, -⟩ | hl
      · exact hm (k', q) (by simp) x (List.mem_filter.mp hx).1
      · exact hm l (by simp [hl]) x hx

omit [IsStrictOrder K (· < ·)] in
/-- Appending keeps a map exact when the new key is comparable to every key of it. -/
theorem Exact.pushBack {m : List (K × List β)} (hm : Exact key m) {x : β}
    (hx : ∀ l ∈ m, ¬ l.1 < key x → ¬ key x < l.1 → l.1 = key x) :
    Exact key (pushBack (key x) x m) := by
  obtain ⟨lo, k', q, hi, hpush, -, hcase⟩ := pushBack_split (key x) x m
  have hlevel : k' = key x ∧ ∀ l, l ∈ lo ∨ l = (k', q) ∧ q ≠ [] ∨ l ∈ hi → l ∈ m := by
    rcases hcase with ⟨rfl, rfl, rfl, -⟩ | ⟨rfl, h₁, h₂⟩
    · refine ⟨rfl, ?_⟩
      intro l hl
      rcases hl with hl | ⟨-, hne⟩ | hl
      · exact List.mem_append_left _ hl
      · exact absurd rfl hne
      · exact List.mem_append_right _ hl
    · refine ⟨hx (k', q) (by simp) h₁ h₂, ?_⟩
      intro l hl
      rcases hl with hl | ⟨rfl, -⟩ | hl
      · exact List.mem_append_left _ hl
      · simp
      · exact List.mem_append_right _ (List.mem_cons_of_mem _ hl)
  rw [hpush]
  intro l hl y hy
  rcases List.mem_append.mp hl with hl | hl
  · exact hm l (hlevel.2 l (.inl hl)) y hy
  · rcases List.mem_cons.mp hl with rfl | hl
    · rcases List.mem_append.mp hy with hy | hy
      · exact hm (k', q) (hlevel.2 _ (.inr (.inl ⟨rfl, List.ne_nil_of_mem hy⟩))) y hy
      · obtain rfl : y = x := by simpa using hy
        exact hlevel.1
    · exact hm l (hlevel.2 l (.inr (.inr hl))) y hy

/-- In an exact map an element's key selects the level that holds it. -/
theorem Exact.find? {m : List (K × List β)} (hs : m.Pairwise fun a b => a.1 < b.1)
    (hm : Exact key m) {x : β} (hx : x ∈ up m) : ∃ q, find? (key x) m = some q ∧ x ∈ q := by
  induction m with
  | nil => simp at hx
  | cons l m ih =>
      obtain ⟨k, q⟩ := l
      unfold LevelMap.find?
      rw [List.pairwise_cons] at hs
      by_cases hxq : x ∈ q
      · obtain rfl : k = key x := hm (k, q) (List.mem_cons_self ..) x hxq
        rw [if_neg (irrefl _), if_neg (irrefl _)]
        exact ⟨q, rfl, hxq⟩
      · have hxm : x ∈ up m := (List.mem_append.mp hx).resolve_left hxq
        obtain ⟨l, hl, hxl⟩ := mem_up.mp hxm
        have hk : k < key x := hm l (List.mem_cons_of_mem _ hl) x hxl ▸ hs.1 l hl
        rw [if_pos hk]
        exact ih hs.2 (fun l hl => hm l (List.mem_cons_of_mem _ hl)) hxm

omit [DecidableLT K] [IsStrictOrder K (· < ·)] in
/-- An exact map lists its elements in ascending key order, and queue order is kept
among equal keys. -/
theorem Exact.up_pairwise {m : List (K × List β)} (hs : m.Pairwise fun a b => a.1 < b.1)
    (hm : Exact key m) {r : β → β → Prop} (hq : ∀ l ∈ m, l.2.Pairwise r) :
    (up m).Pairwise fun x y => key x < key y ∨ (key x = key y ∧ r x y) := by
  rw [up, List.flatMap, List.pairwise_flatten]
  constructor
  · simp only [List.forall_mem_map]
    intro l hl
    refine (hq l hl).imp_of_mem fun {x y} hx hy hxy => .inr ⟨?_, hxy⟩
    rw [← hm l hl x hx, hm l hl y hy]
  · refine List.pairwise_map.mpr (hs.imp_of_mem fun {a b} ha hb hab => ?_)
    intro x hx y hy
    left
    rwa [← hm a ha x hx, ← hm b hb y hy]

omit [DecidableLT K] [IsStrictOrder K (· < ·)] in
theorem Exact.down_pairwise {m : List (K × List β)} (hs : m.Pairwise fun a b => a.1 < b.1)
    (hm : Exact key m) {r : β → β → Prop} (hq : ∀ l ∈ m, l.2.Pairwise r) :
    (down m).Pairwise fun x y => key y < key x ∨ (key x = key y ∧ r x y) := by
  rw [down, List.flatMap, List.pairwise_flatten]
  constructor
  · simp only [List.forall_mem_map, List.mem_reverse]
    intro l hl
    refine (hq l hl).imp_of_mem fun {x y} hx hy hxy => .inr ⟨?_, hxy⟩
    rw [← hm l hl x hx, hm l hl y hy]
  · refine List.pairwise_map.mpr (List.pairwise_reverse.mpr ?_)
    refine hs.imp_of_mem fun {a b} ha hb hab => ?_
    intro x hx y hy
    left
    rwa [← hm b hb x hx, ← hm a ha y hy]

omit [LT K] [DecidableLT K] [IsStrictOrder K (· < ·)] in
/-- What a condition keeps of levels with different keys, if it holds in one of them only. -/
theorem filter_flatMap {m : List (K × List β)} {l : K × List β} {p : β → Bool}
    (hne : m.Pairwise fun a b => a.1 ≠ b.1) (hl : l ∈ m)
    (hother : ∀ l' ∈ m, l'.1 ≠ l.1 → ∀ x ∈ l'.2, ¬ p x = true) :
    (m.flatMap Prod.snd).filter p = l.2.filter p := by
  obtain ⟨front, back, rfl⟩ := List.append_of_mem hl
  obtain ⟨-, hback, hfront⟩ := List.pairwise_append.mp hne
  have hnone : ∀ part : List (K × List β), (∀ l' ∈ part, l' ∈ front ++ l :: back ∧ l'.1 ≠ l.1) →
      (part.flatMap Prod.snd).filter p = [] := by
    intro part hpart
    rw [List.filter_flatMap, List.flatMap_eq_nil_iff]
    intro l' hl'
    exact List.filter_eq_nil_iff.mpr (hother l' (hpart l' hl').1 (hpart l' hl').2)
  rw [List.flatMap_append, List.flatMap_cons, List.filter_append, List.filter_append,
    hnone front, hnone back, List.nil_append, List.append_nil]
  · intro l' hl'
    exact ⟨by simp [hl'], fun heq => (List.pairwise_cons.mp hback).1 l' hl' heq.symm⟩
  · intro l' hl'
    exact ⟨by simp [hl'], hfront l' hl' l List.mem_cons_self⟩

omit [LT K] [DecidableLT K] [IsStrictOrder K (· < ·)] in
/-- Of the elements of levels with different keys, those with the key of a level are that level. -/
theorem Exact.filter_flatMap [DecidableEq K] {m : List (K × List β)} {l : K × List β}
    (hne : m.Pairwise fun a b => a.1 ≠ b.1) (hm : Exact key m) (hl : l ∈ m) :
    (m.flatMap Prod.snd).filter (fun x => key x = l.1) = l.2 := by
  rw [LevelMap.filter_flatMap hne hl]
  · refine List.filter_eq_self.mpr fun x hx => ?_
    rw [← hm l hl x hx, decide_eq_true_iff]
  · intro l' hl' hkey x hx
    rw [← hm l' hl' x hx, decide_eq_true_iff]
    exact hkey

omit [DecidableLT K] [IsStrictOrder K (· < ·)] in
/-- Levels in strict order neither of which is below the other are one level. -/
theorem eq_of_not_lt {m : List (K × List β)} (hs : m.Pairwise fun a b => a.1 < b.1)
    {l l' : K × List β} (hl : l ∈ m) (hl' : l' ∈ m) (h : ¬ l.1 < l'.1) (h' : ¬ l'.1 < l.1) :
    l = l' := by
  let Same (a b : K × List β) : Prop := ¬ a.1 < b.1 → ¬ b.1 < a.1 → a = b
  have hsymm : Std.Symm Same := ⟨fun a b hab hba hab' => (hab hab' hba).symm⟩
  have hpair : m.Pairwise Same := hs.imp fun hlt hnlt => absurd hlt hnlt
  exact hpair.forall_of_forall (fun _ _ _ _ => rfl) hl hl' h h'

/-- What is given for each key adds up to, keys in the order in which they first occur. -/
def totals [DecidableEq K] (xs : List (K × Nat)) : List (K × Nat) :=
  (xs.map Prod.fst).eraseDups.map fun k => (k, ((xs.filter fun x => x.1 = k).map Prod.snd).sum)

omit [LT K] [DecidableLT K] [IsStrictOrder K (· < ·)] in
theorem fst_mem_totals [DecidableEq K] {xs : List (K × Nat)} {k : K} :
    k ∈ (totals xs).map Prod.fst ↔ k ∈ xs.map Prod.fst := by
  rw [totals, List.map_map]
  show k ∈ (xs.map Prod.fst).eraseDups.map id ↔ _
  rw [List.map_id, List.mem_eraseDups]

omit [LT K] [DecidableLT K] [IsStrictOrder K (· < ·)] in
/-- The keys of the elements of levels with different keys are those of the levels. -/
theorem Exact.eraseDups_keys [DecidableEq K] {m : List (K × List β)}
    (hne : m.Pairwise fun a b => a.1 ≠ b.1) (hm : Exact key m) (hfull : ∀ l ∈ m, l.2 ≠ []) :
    ((m.flatMap Prod.snd).map key).eraseDups = m.map Prod.fst := by
  induction m with
  | nil => rfl
  | cons l m ih =>
      obtain ⟨hhead, htail⟩ := List.pairwise_cons.mp hne
      have hkey : ∀ x ∈ l.2, key x = l.1 := fun x hx => (hm l List.mem_cons_self x hx).symm
      have hrest : Exact key m := fun l' hl' => hm l' (List.mem_cons_of_mem _ hl')
      obtain ⟨x, xs, hl⟩ := List.exists_cons_of_ne_nil (hfull l List.mem_cons_self)
      -- behind the first element of the level its key is not new, the keys of the others are
      have hdrop : ((xs.map key).filter fun k => !k == key x) = [] := by
        refine List.filter_eq_nil_iff.mpr ?_
        intro k hk
        obtain ⟨y, hy, rfl⟩ := List.mem_map.mp hk
        rw [hkey y (hl ▸ List.mem_cons_of_mem _ hy), hkey x (hl ▸ List.mem_cons_self)]
        simp
      have hkeep : (((m.flatMap Prod.snd).map key).filter fun k => !k == key x) =
          (m.flatMap Prod.snd).map key := by
        refine List.filter_eq_self.mpr ?_
        intro k hk
        obtain ⟨y, hy, rfl⟩ := List.mem_map.mp hk
        obtain ⟨l', hl', hyl⟩ := List.mem_flatMap.mp hy
        rw [← hrest l' hl' y hyl, hkey x (hl ▸ List.mem_cons_self)]
        simpa using (hhead l' hl').symm
      rw [List.flatMap_cons, List.map_append, hl, List.map_cons, List.cons_append,
        List.eraseDups_cons, List.filter_append, hdrop, hkeep, List.nil_append, List.map_cons,
        ih htail hrest fun l' hl' => hfull l' (List.mem_cons_of_mem _ hl'),
        hkey x (hl ▸ List.mem_cons_self)]

omit [LT K] [DecidableLT K] [IsStrictOrder K (· < ·)] in
/-- **The totals of the elements of levels with different keys**: one for each level. -/
theorem Exact.totals [DecidableEq K] {m : List (K × List β)}
    (hne : m.Pairwise fun a b => a.1 ≠ b.1) (hm : Exact key m) (hfull : ∀ l ∈ m, l.2 ≠ [])
    (val : β → Nat) : LevelMap.totals ((m.flatMap Prod.snd).map fun x => (key x, val x)) =
      m.map fun l => (l.1, (l.2.map val).sum) := by
  rw [LevelMap.totals, List.map_map]
  show (((m.flatMap Prod.snd).map key).eraseDups.map fun k => (k, _)) = _
  rw [hm.eraseDups_keys hne hfull, List.map_map]
  refine List.map_congr_left fun l hl => ?_
  rw [Function.comp_apply, List.filter_map, List.map_map]
  show (l.1, (((m.flatMap Prod.snd).filter fun x => key x = l.1).map val).sum) = _
  rw [hm.filter_flatMap hne hl]

/-- Appending to an exact map splits it at the new element's key: what is not above it
comes before the new element, what is above it after. -/
theorem Exact.pushBack_split {m : List (K × List β)} (hm : WF key m) (he : Exact key m) {x : β}
    (hx : ∀ l ∈ m, ¬ l.1 < key x → ¬ key x < l.1 → l.1 = key x) :
    ∃ (lo : List (K × List β)) (q : List β) (hi : List (K × List β)),
      up m = up lo ++ q ++ up hi ∧ down m = down hi ++ q ++ down lo ∧
      up (LevelMap.pushBack (key x) x m) = up lo ++ (q ++ [x]) ++ up hi ∧
      down (LevelMap.pushBack (key x) x m) = down hi ++ (q ++ [x]) ++ down lo ∧
      (∀ y ∈ up lo, key y < key x) ∧ (∀ y ∈ q, key y = key x) ∧ ∀ y ∈ up hi, key x < key y := by
  obtain ⟨lo, k', q, hi, hpush, hlo, hcase⟩ := LevelMap.pushBack_split (key x) x m
  have hs := hm.sorted
  have hk' : k' = key x := by
    rcases hcase with ⟨-, rfl, -⟩ | ⟨rfl, h₁, h₂⟩
    · rfl
    · exact hx (k', q) (by simp) h₁ h₂
  have hhi : ∀ l ∈ hi, key x < l.1 := by
    rcases hcase with ⟨rfl, -, -, hhead⟩ | ⟨rfl, -⟩
    · exact above_of_head? (List.pairwise_append.mp hs).2.1 hhead
    · rw [← hk']
      exact (List.pairwise_cons.mp (List.pairwise_append.mp hs).2.1).1
  have hmem : ∀ l, l ∈ lo ∨ l ∈ hi → l ∈ m := by
    rcases hcase with ⟨rfl, -⟩ | ⟨rfl, -⟩
    · exact fun l hl => List.mem_append.mpr hl
    · exact fun l hl => List.mem_append.mpr (hl.imp_right (List.mem_cons_of_mem _))
  refine ⟨lo, q, hi, ?_, ?_, ?_, ?_, ?_, ?_, ?_⟩
  · rcases hcase with ⟨rfl, -, rfl, -⟩ | ⟨rfl, -⟩ <;> simp
  · rcases hcase with ⟨rfl, -, rfl, -⟩ | ⟨rfl, -⟩ <;> simp
  · rw [hpush]; simp
  · rw [hpush]; simp
  · intro y hy
    obtain ⟨l, hl, hyl⟩ := mem_up.mp hy
    rw [← he l (hmem l (.inl hl)) y hyl]
    exact hlo l hl
  · intro y hy
    rcases hcase with ⟨-, -, rfl, -⟩ | ⟨rfl, -⟩
    · simp at hy
    · exact (he (k', q) (by simp) y hy).symm.trans hk'
  · intro y hy
    obtain ⟨l, hl, hyl⟩ := mem_up.mp hy
    rw [← he l (hmem l (.inr hl)) y hyl]
    exact hhi l hl

/-- **Where an element is queued.** In an exact map `pushBack` places an element after
every one whose key is not above its own, and before the others. -/
theorem Exact.up_pushBack {m : List (K × List β)} (hm : WF key m) (he : Exact key m) {x : β}
    (hx : ∀ l ∈ m, ¬ l.1 < key x → ¬ key x < l.1 → l.1 = key x) :
    up (LevelMap.pushBack (key x) x m) =
      (up m).filter (fun y => ¬ key x < key y) ++ x :: (up m).filter fun y => key x < key y := by
  obtain ⟨lo, q, hi, hup, -, hpush, -, hlo, hq, hhi⟩ := Exact.pushBack_split hm he hx
  have hle : ∀ y ∈ up lo ++ q, ¬ key x < key y := by
    intro y hy
    rcases List.mem_append.mp hy with hy | hy
    · exact asymm_of (· < ·) (hlo y hy)
    · rw [hq y hy]
      exact irrefl _
  rw [hpush, hup, List.filter_append, List.filter_append (up lo ++ q)]
  rw [List.filter_eq_self.mpr (by simpa using hle), List.filter_eq_nil_iff.mpr (by simpa using hhi),
    List.filter_eq_nil_iff.mpr (by simpa using hle), List.filter_eq_self.mpr (by simpa using hhi)]
  simp

/-- `up_pushBack` for the list that starts with the highest level. -/
theorem Exact.down_pushBack {m : List (K × List β)} (hm : WF key m) (he : Exact key m) {x : β}
    (hx : ∀ l ∈ m, ¬ l.1 < key x → ¬ key x < l.1 → l.1 = key x) :
    down (LevelMap.pushBack (key x) x m) =
      (down m).filter (fun y => ¬ key y < key x) ++ x ::
        (down m).filter fun y => key y < key x := by
  obtain ⟨lo, q, hi, -, hdown, -, hpush, hlo, hq, hhi⟩ := Exact.pushBack_split hm he hx
  have hge : ∀ y ∈ down hi ++ q, ¬ key y < key x := by
    intro y hy
    rcases List.mem_append.mp hy with hy | hy
    · exact asymm_of (· < ·) (hhi y (mem_down.mp hy))
    · rw [hq y hy]
      exact irrefl _
  have hlt : ∀ y ∈ down lo, key y < key x := fun y hy => hlo y (mem_down.mp hy)
  rw [hpush, hdown, List.filter_append, List.filter_append (down hi ++ q)]
  rw [List.filter_eq_self.mpr (by simpa using hge), List.filter_eq_nil_iff.mpr (by simpa using hlt),
    List.filter_eq_nil_iff.mpr (by simpa using hge), List.filter_eq_self.mpr (by simpa using hlt)]
  simp

omit [DecidableLT K] [IsStrictOrder K (· < ·)] in
theorem WF.tail {l : K × List β} {m : List (K × List β)} (hm : WF key (l :: m)) : WF key m where
  sorted := (List.pairwise_cons.mp hm.sorted).2
  nonempty l hl := hm.nonempty l (List.mem_cons_of_mem _ hl)
  keyed l hl := hm.keyed l (List.mem_cons_of_mem _ hl)

omit [IsStrictOrder K (· < ·)] in
/-- In an exact map the lowest level has the elements that are not above its key. -/
theorem Exact.head_eq {l : K × List β} {m : List (K × List β)} (hm : WF key (l :: m))
    (he : Exact key (l :: m)) :
    l.2 = (up (l :: m)).filter (fun x => ¬ l.1 < key x) ∧
      up m = (up (l :: m)).filter fun x => l.1 < key x := by
  have hq : ∀ x ∈ l.2, ¬ l.1 < key x := fun x hx => (hm.keyed l (List.mem_cons_self ..) x hx).1
  have hup : ∀ x ∈ up m, l.1 < key x := by
    intro x hx
    obtain ⟨l', hl', hx⟩ := mem_up.mp hx
    rw [← he l' (List.mem_cons_of_mem _ hl') x hx]
    exact (List.pairwise_cons.mp hm.sorted).1 l' hl'
  rw [up_cons, List.filter_append, List.filter_append]
  rw [List.filter_eq_self.mpr (by simpa using hq), List.filter_eq_nil_iff.mpr (by simpa using hup),
    List.filter_eq_nil_iff.mpr (by simpa using hq), List.filter_eq_self.mpr (by simpa using hup)]
  simp

omit [IsStrictOrder K (· < ·)] in
/-- **A map is determined by its elements**: their keys fix the levels. -/
theorem Exact.ext {m m' : List (K × List β)} (hm : WF key m) (he : Exact key m) (hm' : WF key m')
    (he' : Exact key m') (h : up m = up m') : m = m' := by
  induction m generalizing m' with
  | nil =>
      cases m' with
      | nil => rfl
      | cons l m' =>
          obtain ⟨x, q, hq⟩ := List.exists_cons_of_ne_nil (hm'.nonempty l (List.mem_cons_self ..))
          simp [hq] at h
  | cons l m ih =>
      cases m' with
      | nil =>
          obtain ⟨x, q, hq⟩ := List.exists_cons_of_ne_nil (hm.nonempty l (List.mem_cons_self ..))
          simp [hq] at h
      | cons l' m' =>
          obtain ⟨hk, hup⟩ := Exact.head_eq hm he
          obtain ⟨hk', hup'⟩ := Exact.head_eq hm' he'
          have hkey : l.1 = l'.1 := by
            have hhead := congrArg List.head? h
            obtain ⟨x, q, hq⟩ := List.exists_cons_of_ne_nil (hm.nonempty l (List.mem_cons_self ..))
            obtain ⟨y, q', hq'⟩ :=
              List.exists_cons_of_ne_nil (hm'.nonempty l' (List.mem_cons_self ..))
            obtain rfl : x = y := by simpa [hq, hq'] using hhead
            have hx := he l (List.mem_cons_self ..) x (by simp [hq])
            have hy := he' l' (List.mem_cons_self ..) x (by simp [hq'])
            rw [hx, hy]
          rw [h, hkey] at hk hup
          have hrest := ih hm.tail (fun l hl => he l (List.mem_cons_of_mem _ hl)) hm'.tail
            (fun l hl => he' l (List.mem_cons_of_mem _ hl)) (hup.trans hup'.symm)
          rw [hrest, Prod.ext hkey (hk.trans hk'.symm)]

omit [DecidableLT K] [IsStrictOrder K (· < ·)] in
/-- A map read backwards is well formed for the reversed order. -/
theorem WF.reverse {m : List (K × List β)} (hm : WF key m) :
    @WF K β ⟨fun a b => b < a⟩ key m.reverse :=
  @WF.mk K β ⟨fun a b => b < a⟩ key m.reverse (List.pairwise_reverse.mpr hm.sorted)
    (fun l hl => hm.nonempty l (List.mem_reverse.mp hl))
    fun l hl x hx => (hm.keyed l (List.mem_reverse.mp hl) x hx).symm

omit [IsStrictOrder K (· < ·)] in
/-- `ext` for the list that starts with the highest level. -/
theorem Exact.ext_down {m m' : List (K × List β)} (hm : WF key m) (he : Exact key m)
    (hm' : WF key m') (he' : Exact key m') (h : down m = down m') : m = m' := by
  refine List.reverse_inj.mp (@Exact.ext K β ⟨fun a b => b < a⟩ (fun a b => ‹DecidableLT K› b a)
    key _ _ hm.reverse ?_ hm'.reverse ?_ h)
  · exact fun l hl => he l (List.mem_reverse.mp hl)
  · exact fun l hl => he' l (List.mem_reverse.mp hl)

omit [DecidableLT K] [IsStrictOrder K (· < ·)] in
theorem WF.erase {m : List (K × List β)} (hm : WF key m) (p : β → Bool) :
    WF key (LevelMap.erase p m) where
  sorted := List.Pairwise.filter _ (List.pairwise_map.mpr (hm.sorted.imp fun hab => hab))
  nonempty l hl := (mem_erase.mp hl).1
  keyed l hl := by
    obtain ⟨-, l', hl', rfl⟩ := mem_erase.mp hl
    exact fun x hx => hm.keyed l' hl' x (List.mem_filter.mp hx).1

omit [LT K] [DecidableLT K] [IsStrictOrder K (· < ·)] in
theorem Exact.erase {m : List (K × List β)} (hm : Exact key m) (p : β → Bool) :
    Exact key (LevelMap.erase p m) := by
  intro l hl
  obtain ⟨-, l', hl', rfl⟩ := mem_erase.mp hl
  exact fun x hx => hm l' hl' x (List.mem_filter.mp hx).1

/-! ### Turning a map over -/

section Flip

variable {f : K → K} {g : β → γ} {key' : γ → K}

omit [LT K] [DecidableLT K] [IsStrictOrder K (· < ·)] in
theorem up_flip (f : K → K) (g : β → γ) (m : List (K × List β)) :
    up (flip f g m) = (down m).map g := by
  simp [up, down, flip, List.flatMap_map, List.map_flatMap, ← List.map_reverse]

omit [LT K] [DecidableLT K] [IsStrictOrder K (· < ·)] in
theorem down_flip (f : K → K) (g : β → γ) (m : List (K × List β)) :
    down (flip f g m) = (up m).map g := by
  simp [up, down, flip, List.flatMap_map, List.map_flatMap]

omit [LT K] [DecidableLT K] [IsStrictOrder K (· < ·)] in
/-- Turning a map over twice along involutions gives it back. -/
theorem flip_flip {g : β → β} (hf : ∀ k, f (f k) = k) (hg : ∀ x, g (g x) = x)
    (m : List (K × List β)) : flip f g (flip f g m) = m := by
  simp [flip, List.map_map, Function.comp_def, hf, hg]

omit [DecidableLT K] [IsStrictOrder K (· < ·)] in
/-- Turning a map over along an order-reversing renaming keeps it well formed. -/
theorem WF.flip {m : List (K × List β)} (hm : WF key m) (hf : ∀ a b, f a < f b ↔ b < a)
    (hkey : ∀ x, key' (g x) = f (key x)) : WF key' (flip f g m) where
  sorted := by
    rw [LevelMap.flip, List.pairwise_reverse, List.pairwise_map]
    exact hm.sorted.imp fun {a b} hab => (hf _ _).mpr hab
  nonempty := by
    simp only [LevelMap.flip, List.mem_reverse, List.forall_mem_map]
    exact fun l hl => by simpa using hm.nonempty l hl
  keyed := by
    simp only [LevelMap.flip, List.mem_reverse, List.forall_mem_map]
    intro l hl x hx
    obtain ⟨h₁, h₂⟩ := hm.keyed l hl x hx
    rw [hkey, hf, hf]
    exact ⟨h₂, h₁⟩

omit [LT K] [DecidableLT K] [IsStrictOrder K (· < ·)] in
theorem Exact.flip {m : List (K × List β)} (hm : Exact key m)
    (hkey : ∀ x, key' (g x) = f (key x)) : Exact key' (flip f g m) := by
  simp only [Exact, LevelMap.flip, List.mem_reverse, List.forall_mem_map]
  intro l hl x hx
  rw [hkey, hm l hl x hx]

end Flip

end StrictOrder

end LevelMap
