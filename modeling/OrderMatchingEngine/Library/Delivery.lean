import Mathlib.Data.List.Basic
import Mathlib.Tactic.Common

/-!
# Library.Delivery

What a subscriber sees of a stream of announcements that comes through a queue.

It takes the items from the queue in order and shows those it wants. Of all announcements, `due` is
what is still to be put into the queue, and `sure` is what must not have been missed: it is between
these two that what was seen and what waits must be (`Delivery`). An announcement that is never put
into the queue may be dropped from `due`, as long as it is not sure.

A subscriber may also go from one queue to the next. If the numbers of the queues only grow, what it
got is in order when what it got from each of them is (`sublist_of_parts`), and what all of them got
is what they got from each (`flatMap_parts`). Where items were made of others, each of what was seen
has its source, and the sources are in order, too (`exists_sources`, `forall₂_filter_filterMap`).
-/

universe u v

variable {α : Type u}

/-- What was `seen` and what is `waiting` has all that is `sure` and, with what is `due`, nothing
but what was announced: in order, and each once. -/
structure Delivery (wanted : α → Bool) (sure seen waiting due announced : List α) : Prop where
  lower : (sure.filter wanted).Sublist (seen ++ waiting.filter wanted)
  upper : (seen ++ (waiting ++ due).filter wanted).Sublist (announced.filter wanted)

namespace Delivery

variable {wanted : α → Bool} {sure seen waiting due announced : List α} {x : α}

/-- Nothing was announced but what is due. -/
theorem start (due : List α) : Delivery wanted [] [] [] due due := ⟨by simp, by simp⟩

theorem seen_sublist (h : Delivery wanted sure seen waiting due announced) :
    seen.Sublist (announced.filter wanted) := (List.sublist_append_left ..).trans h.upper

/-- An item is taken from the queue and shown. -/
theorem shown (h : Delivery wanted sure seen (x :: waiting) due announced) (hx : wanted x = true) :
    Delivery wanted sure (seen ++ [x]) waiting due announced := by
  obtain ⟨hlower, hupper⟩ := h
  rw [List.filter_cons_of_pos hx] at hlower
  rw [List.cons_append, List.filter_cons_of_pos hx] at hupper
  exact ⟨by simpa using hlower, by simpa using hupper⟩

/-- An item is taken from the queue and dropped. -/
theorem skip (h : Delivery wanted sure seen (x :: waiting) due announced) (hx : wanted x = false) :
    Delivery wanted sure seen waiting due announced := by
  obtain ⟨hlower, hupper⟩ := h
  have hnot : ¬ wanted x = true := by simp [hx]
  rw [List.filter_cons_of_neg hnot] at hlower
  rw [List.cons_append, List.filter_cons_of_neg hnot] at hupper
  exact ⟨hlower, hupper⟩

/-- One more is announced. -/
theorem announce (h : Delivery wanted sure seen waiting [] announced) (x : α) :
    Delivery wanted sure seen waiting [x] (announced ++ [x]) := by
  obtain ⟨hlower, hupper⟩ := h
  rw [List.append_nil] at hupper
  refine ⟨hlower, ?_⟩
  rw [List.filter_append, List.filter_append, ← List.append_assoc]
  exact hupper.append_right _

/-- What is due is put into the queue: from now on it is sure. -/
theorem put (h : Delivery wanted sure seen waiting due announced) :
    Delivery wanted (sure ++ due) seen (waiting ++ due) [] announced := by
  obtain ⟨hlower, hupper⟩ := h
  refine ⟨?_, by rwa [List.append_nil]⟩
  rw [List.filter_append, List.filter_append, ← List.append_assoc]
  exact hlower.append_right _

/-- What is due will not be put into the queue. -/
theorem miss (h : Delivery wanted sure seen waiting due announced) :
    Delivery wanted sure seen waiting [] announced := by
  obtain ⟨hlower, hupper⟩ := h
  refine ⟨hlower, List.Sublist.trans ?_ hupper⟩
  exact ((List.append_sublist_append_left waiting).mpr (List.nil_sublist due)).filter wanted
    |>.append_left seen

/-- Less may be taken to be sure. -/
theorem mono {sure' : List α} (h : Delivery wanted sure seen waiting due announced)
    (hsub : sure'.Sublist sure) : Delivery wanted sure' seen waiting due announced :=
  ⟨(hsub.filter wanted).trans h.lower, h.upper⟩

end Delivery

/-- **Queues in a row.** Of two lists whose keys only grow, one is in the other if the parts of each
key are. -/
theorem sublist_of_parts (key : α → Nat) {l l' : List α}
    (hl : l.Pairwise fun x y => key x ≤ key y) (hl' : l'.Pairwise fun x y => key x ≤ key y)
    (h : ∀ k, (l.filter fun x => key x = k).Sublist (l'.filter fun x => key x = k)) :
    l.Sublist l' := by
  induction l' generalizing l with
  | nil =>
      cases l with
      | nil => exact .slnil
      | cons a l =>
          have hpart := h (key a)
          rw [List.filter_cons_of_pos (by simp)] at hpart
          simp at hpart
  | cons b l' ih =>
      obtain ⟨hb, hsorted'⟩ := List.pairwise_cons.mp hl'
      by_cases hfirst : (l.filter fun x => key x = key b).Sublist (l'.filter fun x => key x = key b)
      · refine (ih hl hsorted' fun k => ?_).cons b
        by_cases hk : key b = k
        · exact hk ▸ hfirst
        · have hpart := h k
          rwa [List.filter_cons_of_neg (by simpa using hk)] at hpart
      · -- the first of `l` with this key is `b`, and no other key comes before it
        cases l with
        | nil => simp at hfirst
        | cons a l =>
            obtain ⟨ha, hsorted⟩ := List.pairwise_cons.mp hl
            have hle : key b ≤ key a := by
              have hpart := (h (key a)).subset (List.mem_filter.mpr ⟨List.mem_cons_self, by simp⟩)
              rcases List.mem_cons.mp (List.mem_filter.mp hpart).1 with rfl | hmem
              · exact Nat.le_refl _
              · exact hb a hmem
            have hge : key a ≤ key b := by
              refine Nat.le_of_not_lt fun hlt => hfirst ?_
              have hnone : ((a :: l).filter fun x => key x = key b) = [] := by
                refine List.filter_eq_nil_iff.mpr fun x hx => ?_
                rcases List.mem_cons.mp hx with rfl | hx
                · simpa using Nat.ne_of_gt hlt
                · simpa using Nat.ne_of_gt (Nat.lt_of_lt_of_le hlt (ha x hx))
              exact hnone ▸ List.nil_sublist _
            have hkey : key a = key b := Nat.le_antisymm hge hle
            have hpart := h (key b)
            rw [List.filter_cons_of_pos (by simpa using hkey), List.filter_cons_of_pos (by simp)]
              at hpart
            rw [List.filter_cons_of_pos (by simpa using hkey)] at hfirst
            obtain ⟨rfl, hrest⟩ := (List.cons_sublist_cons'.mp hpart).resolve_left hfirst
            refine (ih hsorted hsorted' fun k => ?_).cons_cons a
            by_cases hk : key a = k
            · exact hk ▸ hrest
            · have hpart := h k
              rwa [List.filter_cons_of_neg (by simpa using hk),
                List.filter_cons_of_neg (by simpa using hk)] at hpart

/-- The elements with the smallest key come first. -/
theorem filter_append_of_sorted (key : α → Nat) {l : List α} {k : Nat}
    (hl : l.Pairwise fun x y => key x ≤ key y) (hk : ∀ x ∈ l, k ≤ key x) :
    (l.filter fun x => key x = k) ++ (l.filter fun x => key x ≠ k) = l := by
  induction l with
  | nil => rfl
  | cons a l ih =>
      obtain ⟨ha, hl⟩ := List.pairwise_cons.mp hl
      obtain ⟨hka, hk⟩ := List.forall_mem_cons.mp hk
      by_cases heq : key a = k
      · rw [List.filter_cons_of_pos (by simpa using heq),
          List.filter_cons_of_neg (by simpa using heq), List.cons_append, ih hl hk]
      · have hnone : ((a :: l).filter fun x => key x = k) = [] := by
          refine List.filter_eq_nil_iff.mpr fun x hx => ?_
          rcases List.mem_cons.mp hx with rfl | hx
          · simpa using heq
          · have hle := ha x hx
            simp only [decide_eq_true_eq]
            omega
        rw [hnone, List.nil_append, List.filter_eq_self]
        intro x hx
        rcases List.mem_cons.mp hx with rfl | hx
        · simpa using heq
        · have hle := ha x hx
          simp only [ne_eq, decide_not, Bool.not_eq_true', decide_eq_false_iff_not]
          omega

/-- A list whose keys only grow is made of the parts of its keys. -/
theorem flatMap_parts (key : α → Nat) {l : List α} {keys : List Nat}
    (hl : l.Pairwise fun x y => key x ≤ key y) (hkeys : keys.Pairwise (· < ·))
    (hmem : ∀ x ∈ l, key x ∈ keys) : (keys.flatMap fun k => l.filter fun x => key x = k) = l := by
  induction keys generalizing l with
  | nil =>
      have hnil : l = [] := List.eq_nil_iff_forall_not_mem.mpr fun x hx => by simpa using hmem x hx
      rw [hnil]
      rfl
  | cons k keys ih =>
      obtain ⟨hk, hkeys⟩ := List.pairwise_cons.mp hkeys
      have hmin : ∀ x ∈ l, k ≤ key x := fun x hx => by
        rcases List.mem_cons.mp (hmem x hx) with heq | hlater
        · exact Nat.le_of_eq heq.symm
        · exact Nat.le_of_lt (hk _ hlater)
      have hlater : ∀ x ∈ l.filter fun x => key x ≠ k, key x ∈ keys := fun x hx => by
        obtain ⟨hx, hne⟩ := List.mem_filter.mp hx
        exact (List.mem_cons.mp (hmem x hx)).resolve_left (by simpa using hne)
      have hparts : (keys.flatMap fun j => l.filter fun x => key x = j) =
          keys.flatMap fun j => (l.filter fun x => key x ≠ k).filter fun x => key x = j := by
        refine List.flatMap_congr fun j hj => ?_
        rw [List.filter_filter]
        refine List.filter_congr fun x _ => ?_
        have hne := Nat.ne_of_gt (hk j hj)
        by_cases hx : key x = j <;> simp [hx, hne]
      rw [List.flatMap_cons, hparts, ih (hl.filter _) hkeys hlater]
      exact filter_append_of_sorted key hl hmin

/-- **What items were made of.** -/
theorem exists_sources {β : Type v} {f : α → Option β} {as : List α} {bs : List β}
    (h : bs.Sublist (as.filterMap f)) :
    ∃ sources : List α, sources.Sublist as ∧ List.Forall₂ (fun a b => f a = some b) sources bs := by
  induction as generalizing bs with
  | nil =>
      obtain rfl := List.sublist_nil.mp h
      exact ⟨[], List.Sublist.slnil, .nil⟩
  | cons a as ih =>
      rcases hfa : f a with _ | b
      · rw [List.filterMap_cons_none hfa] at h
        obtain ⟨sources, hsub, hall⟩ := ih h
        exact ⟨sources, hsub.cons a, hall⟩
      · rw [List.filterMap_cons_some hfa] at h
        rcases List.sublist_cons_iff.mp h with h | ⟨rest, rfl, h⟩
        · obtain ⟨sources, hsub, hall⟩ := ih h
          exact ⟨sources, hsub.cons a, hall⟩
        · obtain ⟨sources, hsub, hall⟩ := ih (List.cons_sublist_cons.mp h)
          exact ⟨a :: sources, hsub.cons_cons a, .cons hfa hall⟩

/-- **What the items that are wanted were made of** are those that are wanted. -/
theorem forall₂_filter_filterMap {β : Type v} {f : α → Option β} {p : α → Bool} {q : β → Bool}
    {R : α → β → Prop} {as : List α} (hpos : ∀ a ∈ as, p a = true → ∃ b, f a = some b ∧ R a b)
    (hwanted : ∀ a ∈ as, ∀ b, f a = some b → p a = q b) :
    List.Forall₂ R (as.filter p) ((as.filterMap f).filter q) := by
  induction as with
  | nil => exact .nil
  | cons a as ih =>
      have hrest := ih (fun a ha => hpos a (List.mem_cons_of_mem _ ha)) fun a ha =>
        hwanted a (List.mem_cons_of_mem _ ha)
      rcases hfa : f a with _ | b
      · have hnot : ¬ p a = true := fun hp => by
          obtain ⟨b, hb, -⟩ := hpos a List.mem_cons_self hp
          simp [hfa] at hb
        rwa [List.filterMap_cons_none hfa, List.filter_cons_of_neg hnot]
      · have hsame := hwanted a List.mem_cons_self b hfa
        rw [List.filterMap_cons_some hfa, List.filter_cons, List.filter_cons, hsame]
        split
        · rename_i hq
          obtain ⟨b', hb', hR⟩ := hpos a List.mem_cons_self (hsame.trans hq)
          obtain rfl := Option.some.inj (hfa.symm.trans hb')
          exact .cons hR hrest
        · exact hrest
