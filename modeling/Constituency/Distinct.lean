/-!
# Distinct elements

Orders of discovery are lists in which every element stands once, at its first
occurrence. These are the facts about such lists that the closure of a chart
cell rests on: dropping repetitions leaves none, and every batch of new elements
uses up as many of the elements still missing.

## Main results

* `nodup_eraseDups`             — dropping repetitions leaves distinct elements.
* `eraseDups_eq_self`           — distinct elements are left as they are.
* `eraseDups_concat`            — what an element at the end adds.
* `eraseDups_removeAll_cons`    — what an element in front adds to those not known.
* `pairwise_idxOf_lt`           — distinct elements stand in the order of their positions.
* `pairwise_zipIdx_lt`          — numbered items stand in the order of their numbers.
* `missing_append_add_length_le` — a batch of new elements uses up its length.
* `length_missing_cons_lt`      — so does a single new element.
-/

namespace Constituency

variable {α : Type} [BEq α] [LawfulBEq α]

/-- Dropping the repetitions of a list leaves distinct elements. -/
theorem nodup_eraseDups (l : List α) : l.eraseDups.Nodup := by
  match l with
  | [] => simp
  | a :: as =>
    rw [List.eraseDups_cons]
    refine List.nodup_cons.2 ⟨?_, nodup_eraseDups _⟩
    simp
termination_by l.length
decreasing_by exact Nat.lt_succ_of_le (List.length_filter_le _ _)

/-- Distinct elements have no repetitions to drop. -/
theorem eraseDups_eq_self {l : List α} (h : l.Nodup) : l.eraseDups = l := by
  induction l with
  | nil => rfl
  | cons a as ih =>
    obtain ⟨ha, has⟩ := List.nodup_cons.1 h
    have hkeep : (as.filter fun b => !b == a) = as := by
      refine List.filter_eq_self.2 fun b hb => ?_
      have hne : b ≠ a := fun heq => ha (heq ▸ hb)
      rw [beq_eq_false_iff_ne.2 hne]
      rfl
    rw [List.eraseDups_cons, hkeep, ih has]

/-- An element at the end is a repetition or a first occurrence. -/
theorem eraseDups_concat (as : List α) (a : α) :
    (as ++ [a]).eraseDups = if a ∈ as then as.eraseDups else as.eraseDups ++ [a] := by
  rw [List.eraseDups_append]
  by_cases ha : a ∈ as
  · have hnone : [a].removeAll as = [] := by simp [List.removeAll, ha]
    rw [if_pos ha, hnone, List.eraseDups_nil, List.append_nil]
  · have hself : [a].removeAll as = [a] := by simp [List.removeAll, ha]
    rw [if_neg ha, hself]
    rfl

/-- In a row of blocks, each with one element only, the first occurrences are those of the
blocks that are not empty. -/
theorem eraseDups_flatMap_eq_filter {as : List α} (has : as.Nodup) {f : α → List α}
    (hf : ∀ a ∈ as, ∀ b ∈ f a, b = a) :
    (as.flatMap f).eraseDups = as.filter fun a => !(f a).isEmpty := by
  induction as with
  | nil => rfl
  | cons a as ih =>
    obtain ⟨ha, has⟩ := List.nodup_cons.1 has
    obtain ⟨hblock, hf⟩ := List.forall_mem_cons.1 hf
    have hrest : (as.flatMap f).removeAll (f a) = as.flatMap f := by
      refine List.filter_eq_self.2 fun b hb => ?_
      obtain ⟨a', ha', hb⟩ := List.mem_flatMap.1 hb
      rw [hf a' ha' b hb]
      have hnot : a' ∉ f a := fun hmem => ha (hblock a' hmem ▸ ha')
      simpa using hnot
    rw [List.flatMap_cons, List.eraseDups_append, hrest, ih has hf, List.filter_cons]
    cases hfa : f a with
    | nil => rfl
    | cons b bs =>
      rw [hfa] at hblock
      obtain ⟨rfl, hblock⟩ := List.forall_mem_cons.1 hblock
      have hsame : bs.filter (fun b' => !b' == b) = [] :=
        List.filter_eq_nil_iff.2 fun b' hb' => by simp [hblock b' hb']
      rw [List.eraseDups_cons, hsame]
      rfl

/-- In a list of distinct elements, they stand in the order of their positions. -/
theorem pairwise_idxOf_lt {l : List α} (h : l.Nodup) :
    l.Pairwise fun a b => l.idxOf a < l.idxOf b := by
  refine List.pairwise_iff_getElem.2 fun i j hi hj hij => ?_
  rw [h.idxOf_getElem i hi, h.idxOf_getElem j hj]
  exact hij

/-- Items are numbered in their order. -/
theorem pairwise_zipIdx_lt {α : Type} (l : List α) (n : Nat) :
    (l.zipIdx n).Pairwise fun x y => x.2 < y.2 := by
  have hrange := List.pairwise_lt_range' (s := n) (n := l.length)
  rw [← List.zipIdx_map_snd n l] at hrange
  exact List.pairwise_map.1 hrange

/-- Which elements are removed is a matter of which there are in the second list. -/
theorem removeAll_congr {as bs cs : List α} (h : ∀ a, a ∈ bs ↔ a ∈ cs) :
    as.removeAll bs = as.removeAll cs := by
  refine List.filter_congr fun a _ => ?_
  rw [Bool.eq_iff_iff]
  simp [h]

theorem removeAll_removeAll (as bs cs : List α) :
    (as.removeAll bs).removeAll cs = as.removeAll (bs ++ cs) := by
  unfold List.removeAll
  rw [List.filter_filter]
  refine List.filter_congr fun a _ => ?_
  rw [Bool.eq_iff_iff]
  simp [and_comm]

/-- Of the elements that are not known, the first one is known to those behind it. -/
theorem eraseDups_removeAll_cons (a : α) (as known : List α) :
    ((a :: as).removeAll known).eraseDups =
      if a ∈ known then (as.removeAll known).eraseDups
      else a :: (as.removeAll (known ++ [a])).eraseDups := by
  by_cases ha : a ∈ known
  · have hdrop : (a :: as).removeAll known = as.removeAll known :=
      List.filter_cons_of_neg (by simp [ha])
    rw [if_pos ha, hdrop]
  · have hkeep : (a :: as).removeAll known = a :: as.removeAll known :=
      List.filter_cons_of_pos (by simp [ha])
    have hrest : (as.removeAll known).filter (fun b => !b == a) = as.removeAll (known ++ [a]) := by
      rw [← removeAll_removeAll]
      exact List.filter_congr fun b _ => by simp
    rw [if_neg ha, hkeep, List.eraseDups_cons, hrest]

/-- The elements of `as` that have not been seen. -/
def missing (as seen : List α) : List α :=
  as.filter fun a => !seen.contains a

theorem mem_missing {as seen : List α} {a : α} : a ∈ missing as seen ↔ a ∈ as ∧ a ∉ seen := by
  simp [missing]

/-- What is missing after a batch has been seen is what was missing before,
without the batch. -/
theorem missing_append (as seen new : List α) :
    missing as (seen ++ new) = (missing as seen).filter fun a => !new.contains a := by
  unfold missing
  rw [List.filter_filter]
  refine List.filter_congr fun a _ => ?_
  simp [Bool.and_comm]

/-- Seeing a batch of distinct elements that were missing leaves as many fewer. -/
theorem missing_append_add_length_le {as seen new : List α} (hnew : new.Nodup)
    (hmem : ∀ a ∈ new, a ∈ missing as seen) :
    (missing as (seen ++ new)).length + new.length ≤ (missing as seen).length := by
  have hle : new.length ≤ ((missing as seen).filter (new.contains ·)).length :=
    hnew.length_le_of_subset fun a ha => by simpa [ha] using hmem a ha
  have htotal : ((missing as seen).filter (new.contains ·)).length +
      ((missing as seen).filter fun a => !new.contains a).length = (missing as seen).length := by
    rw [← List.countP_eq_length_filter, ← List.countP_eq_length_filter,
      List.length_eq_countP_add_countP (new.contains ·)]
    simp
  rw [missing_append]
  omega

/-- Seeing one more that was missing leaves fewer. -/
theorem length_missing_cons_lt {as seen : List α} {a : α} (h : a ∈ missing as seen) :
    (missing as (a :: seen)).length < (missing as seen).length := by
  have hcons : missing as (a :: seen) = missing as (seen ++ [a]) := by
    unfold missing
    refine List.filter_congr fun b _ => ?_
    rw [Bool.eq_iff_iff]
    simp [and_comm]
  have hle := missing_append_add_length_le (List.pairwise_singleton _ a)
    (List.forall_mem_singleton.2 h)
  rw [List.length_singleton] at hle
  rw [hcons]
  omega

end Constituency
