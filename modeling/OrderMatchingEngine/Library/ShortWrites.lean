import Mathlib.Data.List.Chain
import Mathlib.Data.List.Nodup
import Mathlib.Logic.Function.Basic
import Mathlib.Tactic.Common

/-!
# Library.ShortWrites

Packets written to a stream that may accept less than it is given.

A `Write` is a packet and how much of its front was accepted. What comes out at the other end is a
part of a sequence of whole packets as long as nothing is accepted behind a packet that was cut
(`Unbroken`). The converse holds of the bytes themselves rather than of their values: with a note on
each byte of where it is from (`traced`), a stream behind a cut is never part of whole packets
(`inFrame_traced`).

Several writers may share a stream, each with its packet. They are `InTurn` when nothing is accepted
of one while the packet of another is cut; that more of a packet is accepted keeps this
(`InTurn.accept`), and then the stream is made of their packets, all whole but the last.
-/

universe u v

/-- A packet, of which the first `accepted` elements were accepted. -/
structure Write (β : Type u) where
  packet : List β
  accepted : Nat
  le : accepted ≤ packet.length

namespace ShortWrites

variable {β : Type u}

/-- A packet of which `n` elements are accepted, or all if there are fewer. -/
def accepting (n : Nat) (packet : List β) : Write β :=
  ⟨packet, min n packet.length, Nat.min_le_right n _⟩

/-- Some of the packet was accepted, and not all. -/
def Cut (w : Write β) : Prop := 0 < w.accepted ∧ w.accepted < w.packet.length

instance (w : Write β) : Decidable (Cut w) := inferInstanceAs (Decidable (_ ∧ _))

/-- What the writes put into the stream. -/
def delivered (writes : List (Write β)) : List β := writes.flatMap fun w => w.packet.take w.accepted

/-- The stream is the front of a sequence of whole packets. -/
def InFrame (writes : List (Write β)) : Prop :=
  ∃ whole : List (List β), (∀ p ∈ whole, p ∈ writes.map (·.packet)) ∧
    delivered writes <+: whole.flatten

/-- Nothing is accepted behind a packet that was cut. -/
def Unbroken (writes : List (Write β)) : Prop :=
  writes.Pairwise fun w w' => Cut w → w'.accepted = 0

instance (writes : List (Write β)) : Decidable (Unbroken writes) :=
  inferInstanceAs (Decidable (writes.Pairwise _))

variable {w : Write β} {writes : List (Write β)}

theorem delivered_cons (w : Write β) (writes : List (Write β)) :
    delivered (w :: writes) = w.packet.take w.accepted ++ delivered writes := List.flatMap_cons

theorem delivered_eq_nil : delivered writes = [] ↔ ∀ w ∈ writes, w.accepted = 0 := by
  rw [delivered, List.flatMap_eq_nil_iff]
  refine forall₂_congr fun w _ => ?_
  have hle := w.le
  rw [List.take_eq_nil_iff]
  constructor
  · rintro (hzero | hnil)
    · exact hzero
    · rw [hnil] at hle
      exact Nat.le_zero.mp hle
  · exact .inl

/-- **Without a break** the stream is the front of whole packets, each at most once and in order. -/
theorem Unbroken.whole (h : Unbroken writes) : ∃ whole : List (List β),
    whole.Sublist (writes.map (·.packet)) ∧ delivered writes <+: whole.flatten := by
  induction writes with
  | nil => exact ⟨[], List.nil_sublist _, List.nil_prefix⟩
  | cons w writes ih =>
      obtain ⟨hw, hrest⟩ := List.pairwise_cons.mp h
      obtain ⟨whole, hsub, hfront⟩ := ih hrest
      rw [delivered_cons, List.map_cons]
      rcases Nat.eq_zero_or_pos w.accepted with hzero | hpos
      · -- dropped as a whole
        rw [hzero, List.take_zero, List.nil_append]
        exact ⟨whole, hsub.cons _, hfront⟩
      · rcases Nat.lt_or_ge w.accepted w.packet.length with hlt | hge
        · -- cut, so that nothing follows
          have hnone : delivered writes = [] :=
            delivered_eq_nil.mpr fun w' hw' => hw w' hw' ⟨hpos, hlt⟩
          refine ⟨[w.packet], (List.nil_sublist _).cons_cons _, ?_⟩
          rw [hnone, List.append_nil, List.flatten_singleton]
          exact List.take_prefix _ _
        · rw [List.take_of_length_le hge]
          refine ⟨w.packet :: whole, hsub.cons_cons _, ?_⟩
          rw [List.flatten_cons, List.prefix_append_right_inj]
          exact hfront

theorem Unbroken.inFrame (h : Unbroken writes) : InFrame writes := by
  obtain ⟨whole, hsub, hfront⟩ := h.whole
  exact ⟨whole, fun _ hp => hsub.subset hp, hfront⟩

/-! ### Where elements are from -/

/-- The place of an element: the number of its packet, its offset there and the packet's size. -/
structure Origin where
  number : Nat
  offset : Nat
  size : Nat
  deriving DecidableEq, Repr

/-- The elements of a packet, with their places. -/
def tag (number : Nat) (packet : List β) : List (Origin × β) :=
  packet.mapIdx fun i b => (⟨number, i, packet.length⟩, b)

/-- The same writes, with the packets numbered from `number` on. -/
def traced : Nat → List (Write β) → List (Write (Origin × β))
  | _, [] => []
  | number, w :: writes =>
    ⟨tag number w.packet, w.accepted, by rw [tag, List.length_mapIdx]; exact w.le⟩ ::
      traced (number + 1) writes

@[simp] theorem length_tag (number : Nat) (packet : List β) :
    (tag number packet).length = packet.length := List.length_mapIdx

theorem map_tag (number : Nat) (packet : List β) : (tag number packet).map Prod.snd = packet := by
  refine List.ext_getElem (by rw [List.length_map, length_tag]) fun i _ _ => ?_
  simp [tag]

/-- Numbering the packets changes nothing about the stream. -/
theorem delivered_traced (number : Nat) (writes : List (Write β)) :
    (delivered (traced number writes)).map Prod.snd = delivered writes := by
  induction writes generalizing number with
  | nil => rfl
  | cons w writes ih =>
      rw [traced, delivered_cons, delivered_cons, List.map_append, ih, List.map_take, map_tag]

/-- The sizes of a write: all that `Unbroken` looks at. -/
def sizes (w : Write β) : Nat × Nat := (w.packet.length, w.accepted)

theorem unbroken_iff_sizes : Unbroken writes ↔
    (writes.map sizes).Pairwise fun s s' => 0 < s.2 ∧ s.2 < s.1 → s'.2 = 0 := by
  rw [List.pairwise_map]
  exact Iff.rfl

theorem map_sizes_traced (number : Nat) (writes : List (Write β)) :
    (traced number writes).map sizes = writes.map sizes := by
  induction writes generalizing number with
  | nil => rfl
  | cons w writes ih => rw [traced, List.map_cons, List.map_cons, ih, sizes, length_tag, sizes]

theorem unbroken_traced {number : Nat} : Unbroken (traced number writes) ↔ Unbroken writes := by
  rw [unbroken_iff_sizes, unbroken_iff_sizes, map_sizes_traced]

/-- Unless an element is the last of its packet, the next of that packet follows. -/
def Follows (a b : Origin × β) : Prop :=
  a.1.offset + 1 < a.1.size → b.1 = ⟨a.1.number, a.1.offset + 1, a.1.size⟩

theorem isChain_tag (number : Nat) (packet : List β) : (tag number packet).IsChain Follows := by
  rw [List.isChain_iff_getElem]
  intro i hi _
  simp [tag]

theorem last_of_tag {number : Nat} {packet : List β} {a : Origin × β}
    (h : a ∈ (tag number packet).getLast?) : ¬ a.1.offset + 1 < a.1.size := by
  rw [Option.mem_def, tag, List.getLast?_mapIdx, Option.map_eq_some_iff] at h
  obtain ⟨b, -, rfl⟩ := h
  dsimp only
  omega

/-- In whole packets every element is followed so. -/
theorem isChain_whole {whole : List (List (Origin × β))}
    (h : ∀ p ∈ whole, ∃ number packet, p = tag number packet) :
    whole.flatten.IsChain Follows := by
  induction whole with
  | nil => exact .nil
  | cons p whole ih =>
      obtain ⟨⟨number, packet, rfl⟩, hwhole⟩ := List.forall_mem_cons.mp h
      rw [List.flatten_cons]
      exact (isChain_tag number packet).append (ih hwhole) fun a ha _ _ hlt =>
        absurd hlt (last_of_tag ha)

theorem traced_packet {number : Nat} {w : Write (Origin × β)} (h : w ∈ traced number writes) :
    ∃ number' packet, number ≤ number' ∧ w.packet = tag number' packet := by
  induction writes generalizing number with
  | nil => nomatch h
  | cons w' writes ih =>
      rcases List.mem_cons.mp h with rfl | h
      · exact ⟨number, w'.packet, Nat.le_refl _, rfl⟩
      · obtain ⟨number', packet, hle, hp⟩ := ih h
        exact ⟨number', packet, Nat.le_of_succ_le hle, hp⟩

theorem number_le {number : Nat} {a : Origin × β} (h : a ∈ delivered (traced number writes)) :
    number ≤ a.1.number := by
  obtain ⟨w, hw, ha⟩ := List.mem_flatMap.mp h
  obtain ⟨number', packet, hle, hp⟩ := traced_packet hw
  have hmem := List.mem_of_mem_take ha
  rw [hp, tag, List.mem_mapIdx] at hmem
  obtain ⟨i, -, rfl⟩ := hmem
  exact hle

theorem last_of_cut (number : Nat) (h : Cut w) :
    ∃ a ∈ ((tag number w.packet).take w.accepted).getLast?,
      a.1 = ⟨number, w.accepted - 1, w.packet.length⟩ := by
  obtain ⟨hpos, hlt⟩ := h
  have hlen : ((tag number w.packet).take w.accepted).length = w.accepted := by
    rw [List.length_take, length_tag]
    omega
  have hlast : w.accepted - 1 < w.packet.length := by omega
  refine ⟨(⟨number, w.accepted - 1, w.packet.length⟩, w.packet[w.accepted - 1]), ?_, rfl⟩
  rw [Option.mem_def, List.getLast?_eq_getElem?, hlen, List.getElem?_take_of_lt (by omega), tag,
    List.getElem?_mapIdx, List.getElem?_eq_getElem hlast]
  rfl

/-- A stream without a break in it has no accepted element behind a cut. -/
theorem unbroken_of_isChain {number : Nat}
    (h : (delivered (traced number writes)).IsChain Follows) : Unbroken writes := by
  induction writes generalizing number with
  | nil => exact .nil
  | cons w writes ih =>
      rw [traced, delivered_cons, List.isChain_append] at h
      obtain ⟨-, hrest, hnext⟩ := h
      refine List.pairwise_cons.mpr ⟨fun w' hw' hcut => ?_, ih hrest⟩
      have hnone : delivered (traced (number + 1) writes) = [] := by
        by_contra hne
        obtain ⟨b, hb⟩ := Option.ne_none_iff_exists'.mp (mt List.head?_eq_none_iff.mp hne)
        obtain ⟨a, ha, horigin⟩ := last_of_cut number hcut
        obtain ⟨hpos, hlt⟩ := hcut
        have hfollows := hnext a ha b hb
        rw [Follows, horigin] at hfollows
        have hb' := hfollows (by dsimp only; omega)
        have hnumber := number_le (List.mem_of_mem_head? hb)
        rw [hb'] at hnumber
        dsimp only at hnumber
        omega
      have hempty : delivered writes = [] := by
        rw [← delivered_traced (number + 1), hnone, List.map_nil]
      exact delivered_eq_nil.mp hempty w' hw'

/-- **In frame means unbroken**, for elements that are told apart by their places. -/
theorem inFrame_traced : InFrame (traced 0 writes) ↔ Unbroken writes := by
  constructor
  · rintro ⟨whole, hwhole, missing, hall⟩
    have hchain : (delivered (traced 0 writes) ++ missing).IsChain Follows := by
      rw [hall]
      refine isChain_whole fun p hp => ?_
      obtain ⟨w, hw, rfl⟩ := List.mem_map.mp (hwhole p hp)
      obtain ⟨number, packet, -, hpacket⟩ := traced_packet hw
      exact ⟨number, packet, hpacket⟩
    exact unbroken_of_isChain hchain.left_of_append
  · exact fun h => (unbroken_traced.mpr h).inFrame

/-! ### A stream of several writers -/

/-- What was accepted of a writer's packet. -/
def taken (write : Option (Write β)) : List β :=
  write.elim [] fun w => w.packet.take w.accepted

/-- The write, when `n` more elements are accepted. -/
def more (w : Write β) (n : Nat) (h : w.accepted + n ≤ w.packet.length) : Write β :=
  ⟨w.packet, w.accepted + n, h⟩

theorem taken_more {n : Nat} (h : w.accepted + n ≤ w.packet.length) :
    taken (some (more w n h)) = taken (some w) ++ (w.packet.drop w.accepted).take n :=
  List.take_add

theorem taken_ne_nil {write : Option (Write β)} :
    taken write ≠ [] ↔ ∃ w, write = some w ∧ 0 < w.accepted := by
  cases write with
  | none => simp [taken]
  | some w =>
      have hle := w.le
      have hnil : taken (some w) = [] ↔ w.accepted = 0 ∨ w.packet = [] := List.take_eq_nil_iff
      rw [ne_eq, hnil, not_or]
      constructor
      · exact fun h => ⟨w, rfl, Nat.pos_of_ne_zero h.1⟩
      · rintro ⟨w', hw, hpos⟩
        obtain rfl := Option.some.inj hw
        refine ⟨Nat.ne_of_gt hpos, fun hempty => ?_⟩
        rw [hempty, List.length_nil] at hle
        omega

section Writers

variable {θ : Type v} {writes : θ → Option (Write β)} {turns : List θ} {stream : List β} {t : θ}

/-- The stream has what was accepted of these writers' packets, one packet after the other. All of
them are whole but the last one, which may be cut. -/
structure InTurn (writes : θ → Option (Write β)) (turns : List θ) (stream : List β) : Prop where
  nodup : turns.Nodup
  mem_iff : ∀ t, t ∈ turns ↔ ∃ w, writes t = some w ∧ 0 < w.accepted
  stream_eq : stream = turns.flatMap fun t => taken (writes t)
  whole : ∀ t ∈ turns.dropLast, ∀ w, writes t = some w → w.accepted = w.packet.length

/-- No packet but the writer's own is cut. -/
def Alone (writes : θ → Option (Write β)) (t : θ) : Prop :=
  ∀ t' ≠ t, ∀ w, writes t' = some w → ¬ Cut w

theorem InTurn.nil (h : ∀ t, writes t = none) : InTurn writes [] [] where
  nodup := .nil
  mem_iff t := by simp [h t]
  stream_eq := rfl
  whole := by simp

/-- The stream is the front of the packets. -/
theorem InTurn.front (h : InTurn writes turns stream) :
    stream <+: turns.flatMap fun t => (writes t).elim [] Write.packet := by
  rw [h.stream_eq]
  rcases List.eq_nil_or_concat' turns with rfl | ⟨ts, t, rfl⟩
  · exact List.nil_prefix
  · have hwhole := h.whole
    rw [List.dropLast_concat] at hwhole
    have hbefore : (ts.flatMap fun t => taken (writes t)) =
        ts.flatMap fun t => (writes t).elim [] Write.packet := by
      refine List.flatMap_congr fun t' ht' => ?_
      obtain ⟨w, hw, -⟩ := (h.mem_iff t').mp (List.mem_append_left _ ht')
      simp only [hw, taken, Option.elim_some]
      exact List.take_of_length_le (Nat.le_of_eq (hwhole t' ht' w hw).symm)
    rw [List.flatMap_append, List.flatMap_append, hbefore, List.prefix_append_right_inj,
      List.flatMap_singleton, List.flatMap_singleton]
    cases writes t with
    | none => exact List.prefix_refl _
    | some w => exact List.take_prefix _ _

variable [DecidableEq θ]

/-- What the others have written does not depend on a writer. -/
theorem flatMap_taken_update {ts : List θ} (h : t ∉ ts) (write : Option (Write β)) :
    (ts.flatMap fun t' => taken (Function.update writes t write t')) =
      ts.flatMap fun t' => taken (writes t') := by
  refine List.flatMap_congr fun t' ht' => ?_
  rw [Function.update_of_ne (ne_of_mem_of_not_mem ht' h)]

/-- A writer gets its packet. -/
theorem InTurn.start (h : InTurn writes turns stream) (hnone : writes t = none)
    (packet : List β) :
    InTurn (Function.update writes t (some ⟨packet, 0, Nat.zero_le _⟩)) turns stream := by
  have hnot : t ∉ turns := fun ht => by
    obtain ⟨w, hw, -⟩ := (h.mem_iff t).mp ht
    simp [hnone] at hw
  refine ⟨h.nodup, fun t' => ?_, ?_, fun t' ht' w hw => ?_⟩
  · by_cases htt : t' = t
    · subst htt
      simp [hnot]
    · rw [Function.update_of_ne htt]
      exact h.mem_iff t'
  · rw [flatMap_taken_update hnot]
    exact h.stream_eq
  · have htt := ne_of_mem_of_not_mem (List.dropLast_subset _ ht') hnot
    rw [Function.update_of_ne htt] at hw
    exact h.whole t' ht' w hw

/-- **One more piece**, while no other packet is cut. -/
theorem InTurn.accept {n : Nat} (h : InTurn writes turns stream) (hw : writes t = some w)
    (halone : Alone writes t) (hn : 0 < n) (hle : w.accepted + n ≤ w.packet.length) :
    ∃ turns', InTurn (Function.update writes t (some (more w n hle))) turns'
      (stream ++ (w.packet.drop w.accepted).take n) := by
  have hpos : 0 < (more w n hle).accepted := Nat.add_pos_right _ hn
  rcases Nat.eq_zero_or_pos w.accepted with hzero | hbegun
  · -- its first piece: the packets before are whole
    have hnot : t ∉ turns := fun ht => by
      obtain ⟨w', hw', hpos'⟩ := (h.mem_iff t).mp ht
      obtain rfl := Option.some.inj (hw.symm.trans hw')
      exact Nat.ne_of_gt hpos' hzero
    refine ⟨turns ++ [t], ?_, fun t' => ?_, ?_, fun t' ht' w' hw' => ?_⟩
    · exact h.nodup.append (List.nodup_singleton t) (by simpa using hnot)
    · by_cases htt : t' = t
      · subst htt
        simpa using hpos
      · rw [Function.update_of_ne htt, ← h.mem_iff t']
        simp [htt]
    · rw [List.flatMap_append, flatMap_taken_update hnot, ← h.stream_eq, List.flatMap_singleton,
        Function.update_self, taken_more, ← hw]
      simp [taken, hw, hzero]
    · rw [List.dropLast_concat] at ht'
      have htt := ne_of_mem_of_not_mem ht' hnot
      rw [Function.update_of_ne htt] at hw'
      obtain ⟨w'', hw'', hpos''⟩ := (h.mem_iff t').mp ht'
      obtain rfl := Option.some.inj (hw'.symm.trans hw'')
      have hcut := halone t' htt w' hw'
      have hle' := w'.le
      unfold Cut at hcut
      omega
  · -- its packet is cut, and so it is the last one
    have ht : t ∈ turns := (h.mem_iff t).mpr ⟨w, hw, hbegun⟩
    have hnot : t ∉ turns.dropLast := fun hmem => by
      have hwhole := h.whole t hmem w hw
      omega
    have hne : turns ≠ [] := List.ne_nil_of_mem ht
    have hsplit : turns = turns.dropLast ++ [t] := by
      have hlast := List.dropLast_append_getLast hne
      rw [← hlast, List.mem_append, List.mem_singleton] at ht
      have heq : t = turns.getLast hne := ht.resolve_left hnot
      rw [heq]
      exact hlast.symm
    refine ⟨turns, h.nodup, fun t' => ?_, ?_, fun t' ht' w' hw' => ?_⟩
    · by_cases htt : t' = t
      · subst htt
        simpa [ht] using hpos
      · rw [Function.update_of_ne htt]
        exact h.mem_iff t'
    · rw [h.stream_eq, hsplit, List.flatMap_append, List.flatMap_append, flatMap_taken_update hnot,
        List.flatMap_singleton, List.flatMap_singleton, Function.update_self, taken_more, hw,
        List.append_assoc]
    · have htt := ne_of_mem_of_not_mem ht' hnot
      rw [Function.update_of_ne htt] at hw'
      exact h.whole t' ht' w' hw'

end Writers

end ShortWrites
