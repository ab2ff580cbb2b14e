import Mathlib.Data.List.Perm.Basic
import Mathlib.Tactic.Ring

/-! # A list kept in buckets of a fixed size

`Chunks size bucket l` says that the buckets hold the consecutive parts of `l`.
Only the last part may be rewritten: an entry is appended there, and an entry of
it is removed by putting the last entry in its place. A page of the list is read
from the buckets part by part.
-/

namespace Buckets

open Function

variable {α : Type*} {size : Nat} {bucket : Nat → List α} {l front tail new : List α}

def Chunks (size : Nat) (bucket : Nat → List α) (l : List α) : Prop :=
  ∀ idx, bucket idx = (l.drop (idx * size)).take size

theorem Chunks.nil : Chunks size (fun _ => []) ([] : List α) := by
  intro idx
  rw [List.drop_nil, List.take_nil]

theorem Chunks.length (h : Chunks size bucket l) (idx : Nat) :
    (bucket idx).length = min size (l.length - idx * size) := by
  rw [h idx, List.length_take, List.length_drop]

/-- In a list without duplicates an entry has one bucket. -/
theorem Chunks.bucket_unique {b b' : Nat} {x : α} (h : Chunks size bucket l) (hnodup : l.Nodup)
    (hx : x ∈ bucket b) (hx' : x ∈ bucket b') : b = b' := by
  obtain ⟨slot, hslot⟩ := List.mem_iff_getElem?.mp hx
  obtain ⟨slot', hslot'⟩ := List.mem_iff_getElem?.mp hx'
  rw [h, List.getElem?_take, List.getElem?_drop] at hslot hslot'
  obtain ⟨hlt, hat⟩ := Option.ite_none_right_eq_some.mp hslot
  obtain ⟨hlt', hat'⟩ := Option.ite_none_right_eq_some.mp hslot'
  have hbound := (List.getElem?_eq_some_iff.mp hat).1
  have hsame : b * size + slot = b' * size + slot' :=
    (List.getElem?_inj hbound hnodup).mp (hat.trans hat'.symm)
  have hsize : 0 < size := Nat.zero_lt_of_lt hlt
  calc b = (b * size + slot) / size := by
        rw [Nat.mul_comm, Nat.mul_add_div hsize, Nat.div_eq_of_lt hlt, Nat.add_zero]
    _ = (b' * size + slot') / size := by rw [hsame]
    _ = b' := by rw [Nat.mul_comm, Nat.mul_add_div hsize, Nat.div_eq_of_lt hlt', Nat.add_zero]

/-! ## The last part -/

theorem Chunks.last {b : Nat} (h : Chunks size bucket l) (hend : l.length ≤ b * size + size) :
    bucket b = l.drop (b * size) := by
  rw [h b, List.take_of_length_le]
  rw [List.length_drop]
  omega

/-- The part behind `front` may be exchanged. -/
theorem Chunks.exchange {b : Nat} (h : Chunks size bucket (front ++ tail))
    (hfront : front.length = b * size) (htail : tail.length ≤ size) (hnew : new.length ≤ size) :
    Chunks size (update bucket b new) (front ++ new) := by
  intro idx
  rcases Nat.lt_trichotomy idx b with hlt | rfl | hgt
  · have hle : idx * size + size ≤ front.length := by
      rw [hfront, ← Nat.succ_mul]
      exact Nat.mul_le_mul_right size hlt
    have hroom : size ≤ (front.drop (idx * size)).length := by
      rw [List.length_drop]
      omega
    rw [update_of_ne (Nat.ne_of_lt hlt), h idx, List.drop_append_of_le_length (by omega),
      List.drop_append_of_le_length (by omega), List.take_append_of_le_length hroom,
      List.take_append_of_le_length hroom]
  · rw [update_self, ← hfront, List.drop_left, List.take_of_length_le hnew]
  · have hle : front.length + size ≤ idx * size := by
      rw [hfront, ← Nat.succ_mul]
      exact Nat.mul_le_mul_right size hgt
    rw [update_of_ne (Nat.ne_of_gt hgt), h idx, List.drop_eq_nil_of_le, List.drop_eq_nil_of_le]
    all_goals
      rw [List.length_append]
      omega

/-- The list before and from the start of a part. -/
theorem take_length_part {b : Nat} (hstart : b * size ≤ l.length) :
    (l.take (b * size)).length = b * size := by
  rw [List.length_take, Nat.min_eq_left hstart]

theorem Chunks.append (hsize : 0 < size) (h : Chunks size bucket l) (x : α) :
    Chunks size (update bucket (l.length / size) (bucket (l.length / size) ++ [x]))
      (l ++ [x]) := by
  have hdiv := Nat.div_add_mod' l.length size
  have hmod := Nat.mod_lt l.length hsize
  have htail : (l.drop (l.length / size * size)).length < size := by
    rw [List.length_drop]
    omega
  have hlast := h.last (b := l.length / size) (by omega)
  rw [← List.take_append_drop (l.length / size * size) l] at h
  have hmore : (l.drop (l.length / size * size) ++ [x]).length ≤ size := by
    rw [List.length_append]
    exact htail
  have hnew := h.exchange (take_length_part (by omega)) (Nat.le_of_lt htail) hmore
  rwa [← List.append_assoc, List.take_append_drop, ← hlast] at hnew

theorem swap_perm {slot : Nat} {x last : α} (hslot : l[slot]? = some x)
    (hlast : l.getLast? = some last) : (x :: (l.set slot last).dropLast).Perm l := by
  obtain ⟨init, rfl⟩ := List.getLast?_eq_some_iff.mp hlast
  by_cases hend : slot = init.length
  · subst hend
    rw [List.getElem?_concat_length, Option.some.injEq] at hslot
    subst hslot
    rw [List.set_append_right _ _ (Nat.le_refl _), Nat.sub_self, List.set_cons_zero,
      List.dropLast_concat]
    exact (List.perm_append_singleton last init).symm
  · have hlt : slot < init.length := by
      have := (List.getElem?_eq_some_iff.mp hslot).1
      rw [List.length_append, List.length_singleton] at this
      omega
    rw [List.getElem?_append_left hlt] at hslot
    obtain ⟨hlt, hx⟩ := List.getElem?_eq_some_iff.mp hslot
    rw [List.set_append_left _ _ hlt, List.dropLast_concat]
    calc (x :: init.set slot last).Perm (x :: last :: init.eraseIdx slot) :=
          (List.set_perm_cons_eraseIdx hlt last).cons x
      _ |>.Perm (last :: x :: init.eraseIdx slot) := List.Perm.swap ..
      _ |>.Perm (last :: init) := (hx ▸ List.getElem_cons_eraseIdx_perm hlt).cons last
      _ |>.Perm (init ++ [last]) := (List.perm_append_singleton last init).symm

/-- Removing an entry of the last part leaves the buckets in order. -/
theorem Chunks.remove {slot : Nat} {x last : α} (h : Chunks size bucket l)
    (hsize : 0 < size) (hslot : (bucket ((l.length - 1) / size))[slot]? = some x)
    (hlast : (bucket ((l.length - 1) / size)).getLast? = some last) :
    ∃ l', Chunks size (update bucket ((l.length - 1) / size)
        ((bucket ((l.length - 1) / size)).set slot last).dropLast) l' ∧ (x :: l').Perm l := by
  generalize hb : (l.length - 1) / size = b at *
  have hdiv := Nat.div_add_mod' (l.length - 1) size
  have hmod := Nat.mod_lt (l.length - 1) hsize
  rw [hb] at hdiv
  rw [h.last (by omega)] at hslot hlast ⊢
  have hpos : 0 < l.length := by
    have := (List.getElem?_eq_some_iff.mp hslot).1
    rw [List.length_drop] at this
    omega
  have hstart : b * size ≤ l.length := by omega
  refine ⟨l.take (b * size) ++ ((l.drop (b * size)).set slot last).dropLast, ?_, ?_⟩
  · rw [← List.take_append_drop (b * size) l] at h
    refine h.exchange (take_length_part hstart) ?_ ?_
    · rw [List.length_drop]
      omega
    · rw [List.length_dropLast, List.length_set, List.length_drop]
      omega
  · have hperm := (swap_perm hslot hlast).append_left (l.take (b * size))
    rw [List.take_append_drop] at hperm
    exact List.perm_middle.symm.trans hperm

/-! ## Reading -/

/-- What one bucket holds of the list from a position on. -/
theorem Chunks.read (h : Chunks size bucket l) (position n : Nat) :
    ((bucket (position / size)).drop (position - position / size * size)).take n =
      (l.drop position).take (min n (size - position % size)) := by
  have hdiv := Nat.div_add_mod' position size
  have hoffset : position - position / size * size = position % size := by omega
  rw [hoffset, h, List.drop_take, List.drop_drop, List.take_take, hdiv]

/-- Pages of `k` entries one after another. -/
theorem flatMap_pages (l : List α) (k : Nat) :
    ∀ pages, (List.range pages).flatMap (fun page => (l.drop (page * k)).take k) =
      l.take (pages * k) := by
  intro pages
  induction pages with
  | zero => rw [Nat.zero_mul, List.take_zero, List.range_zero, List.flatMap_nil]
  | succ pages ih =>
      rw [List.range_succ, List.flatMap_append, ih, List.flatMap_singleton, ← List.take_add,
        Nat.succ_mul]

/-- As many pages as it takes hold the whole list. -/
theorem flatMap_pages_all (l : List α) {k : Nat} (hk : 0 < k) :
    (List.range ((l.length + k - 1) / k)).flatMap (fun page => (l.drop (page * k)).take k) =
      l := by
  have hdiv := Nat.div_add_mod' (l.length + k - 1) k
  have hmod := Nat.mod_lt (l.length + k - 1) hk
  rw [flatMap_pages, List.take_of_length_le (by omega)]

end Buckets
