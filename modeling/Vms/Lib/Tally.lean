import Mathlib.Data.List.Dedup
import Mathlib.Data.List.Sort

/-! Counting how often keys occur in a list, and the keys that occur most often. Where keys tie, which of them
    are among the most frequent is open; how often these occur is not. -/

namespace Tally

/-- Each key of the list once, with how often it occurs. -/
structure Counts {κ : Type} [DecidableEq κ] (keys : List κ) (tally : List (κ × Nat)) : Prop where
  nodup : (tally.map (·.1)).Nodup
  mem_iff : ∀ key, key ∈ tally.map (·.1) ↔ key ∈ keys
  count : ∀ e ∈ tally, e.2 = keys.count e.1

/-- Some `n` of the keys, or all if there are fewer, that occur most often, the most frequent ones first. -/
structure Top {κ : Type} [DecidableEq κ] (n : Nat) (keys : List κ) (board : List (κ × Nat)) : Prop where
  length : board.length = min n keys.dedup.length
  sorted : board.Pairwise fun a b => b.2 ≤ a.2
  nodup : (board.map (·.1)).Nodup
  count : ∀ e ∈ board, e.1 ∈ keys ∧ e.2 = keys.count e.1
  largest : ∀ key ∈ keys, key ∉ board.map (·.1) → ∀ e ∈ board, keys.count key ≤ e.2

section Tally
variable {κ : Type} [DecidableEq κ] {n : Nat} {keys keys' : List κ} {tally board board' : List (κ × Nat)}

theorem Counts.nil : Counts ([] : List κ) [] :=
  ⟨List.nodup_nil, fun _ => Iff.rfl, fun _ h => absurd h List.not_mem_nil⟩

theorem Counts.perm_dedup (h : Counts keys tally) : (tally.map (·.1)).Perm keys.dedup :=
  (List.perm_ext_iff_of_nodup h.nodup (List.nodup_dedup keys)).mpr fun key => (h.mem_iff key).trans List.mem_dedup.symm

theorem Counts.of_perm (h : Counts keys tally) {tally' : List (κ × Nat)} (hperm : tally'.Perm tally) :
    Counts keys tally' where
  nodup := (hperm.map _).nodup_iff.mpr h.nodup
  mem_iff key := (hperm.map _).mem_iff.trans (h.mem_iff key)
  count e he := h.count e (hperm.mem_iff.mp he)

theorem Counts.concat_known (h : Counts keys tally) {key : κ} (hkey : key ∈ keys) :
    Counts (keys ++ [key]) (tally.map fun e => if e.1 = key then (e.1, e.2 + 1) else e) := by
  have hkeys : (tally.map fun e => if e.1 = key then (e.1, e.2 + 1) else e).map (·.1) = tally.map (·.1) := by
    rw [List.map_map]
    refine List.map_congr_left fun e _ => ?_
    rw [Function.comp_apply]
    split <;> rfl
  refine ⟨?_, fun other => ?_, fun e' he' => ?_⟩
  · rw [hkeys]
    exact h.nodup
  · rw [hkeys, h.mem_iff, List.mem_append, List.mem_singleton]
    exact (or_iff_left_of_imp fun hsame => hsame ▸ hkey).symm
  · obtain ⟨e, he, rfl⟩ := List.mem_map.mp he'
    split
    · rename_i hsame
      simp [h.count e he, List.count_append, hsame]
    · rename_i hother
      simp [h.count e he, List.count_append, Ne.symm hother]

theorem Counts.concat_new (h : Counts keys tally) {key : κ} (hnew : key ∉ keys) :
    Counts (keys ++ [key]) (tally ++ [(key, 1)]) := by
  refine ⟨?_, fun other => ?_, fun e he => ?_⟩
  · rw [List.map_append, List.nodup_append]
    refine ⟨h.nodup, List.nodup_singleton _, ?_⟩
    rintro old hold _ hlast rfl
    have hsame : old = key := List.mem_singleton.mp hlast
    exact hnew (hsame ▸ (h.mem_iff old).mp hold)
  · rw [List.map_append, List.mem_append, List.mem_append, h.mem_iff]
    rfl
  · rcases List.mem_append.mp he with hold | hlast
    · have hother : e.1 ≠ key := fun hsame => hnew (hsame ▸ (h.mem_iff e.1).mp (List.mem_map_of_mem hold))
      simp [h.count e hold, List.count_append, Ne.symm hother]
    · rw [List.mem_singleton.mp hlast]
      simp [List.count_append, List.count_eq_zero_of_not_mem hnew]

/-- The first entries of a tally that is sorted. -/
theorem Counts.top_take (h : Counts keys tally) (sorted : tally.Pairwise fun a b => b.2 ≤ a.2) (n : Nat) :
    Top n keys (tally.take n) where
  length := by
    rw [List.length_take, ← h.perm_dedup.length_eq, List.length_map]
  sorted := sorted.sublist (List.take_sublist n tally)
  nodup := h.nodup.sublist ((List.take_sublist n tally).map _)
  count e he := by
    have hmem : e ∈ tally := List.mem_of_mem_take he
    exact ⟨(h.mem_iff e.1).mp (List.mem_map_of_mem hmem), h.count e hmem⟩
  largest key hkey hout e he := by
    obtain ⟨last, hlast, rfl⟩ := List.mem_map.mp ((h.mem_iff key).mpr hkey)
    rw [← h.count last hlast]
    rw [← List.take_append_drop n tally] at sorted hlast
    rcases List.mem_append.mp hlast with hin | hlast
    · exact absurd (List.mem_map_of_mem hin) hout
    · exact (List.pairwise_append.mp sorted).2.2 e he last hlast

theorem Top.of_perm (h : Top n keys board) (hperm : keys'.Perm keys) : Top n keys' board where
  length := by rw [h.length, hperm.dedup.length_eq]
  sorted := h.sorted
  nodup := h.nodup
  count e he := ⟨hperm.mem_iff.mpr (h.count e he).1, by rw [(h.count e he).2, hperm.count_eq]⟩
  largest key hkey hout e he := by
    rw [hperm.count_eq]
    exact h.largest key (hperm.mem_iff.mp hkey) hout e he

/-- How often keys occur, the highest figure first. -/
def figures (keys : List κ) : List Nat := (keys.dedup.map keys.count).insertionSort (· ≥ ·)

theorem eq_figures {figs : List Nat} (hperm : figs.Perm (keys.dedup.map keys.count)) (sorted : figs.Pairwise (· ≥ ·)) :
    figs = figures keys := by
  have hfigures : (figures keys).Perm (keys.dedup.map keys.count) := List.perm_insertionSort _ _
  refine (hperm.trans hfigures.symm).eq_of_pairwise (fun a b _ _ hab hba => Nat.le_antisymm hba hab) sorted ?_
  exact List.pairwise_insertionSort _ _

/-- The keys that a board leaves out; none of them occurs more often than one on the board. -/
theorem Top.exists_others (h : Top n keys board) : ∃ others, (board.map (·.1) ++ others).Perm keys.dedup ∧
    ∀ key ∈ others, ∀ e ∈ board, keys.count key ≤ e.2 := by
  have hkeys : board.map (·.1) ⊆ keys.dedup := by
    intro key hkey
    obtain ⟨e, he, rfl⟩ := List.mem_map.mp hkey
    exact List.mem_dedup.mpr (h.count e he).1
  obtain ⟨listed, hlisted, hsub⟩ := List.subperm_of_subset h.nodup hkeys
  obtain ⟨others, hperm⟩ := hsub.exists_perm_append
  have hothers : (board.map (·.1) ++ others).Perm keys.dedup := (hlisted.symm.append_right others).trans hperm.symm
  have apart : (board.map (·.1) ++ others).Nodup := hothers.nodup_iff.mpr (List.nodup_dedup keys)
  refine ⟨others, hothers, fun key hkey e he => ?_⟩
  have hmem : key ∈ keys := List.mem_dedup.mp (hothers.mem_iff.mp (List.mem_append_right _ hkey))
  exact h.largest key hmem (fun hin => (List.nodup_append.mp apart).2.2 key hin key hkey rfl) e he

/-- The figures of the most frequent keys are the highest ones. -/
theorem Top.map_snd (h : Top n keys board) : board.map (·.2) = (figures keys).take n := by
  obtain ⟨others, hothers, hless⟩ := h.exists_others
  have hfigs : board.map (·.2) = (board.map (·.1)).map keys.count := by
    rw [List.map_map]
    exact List.map_congr_left fun e he => (h.count e he).2
  -- All figures are those of the board, and after them those of the other keys.
  have hall : board.map (·.2) ++ (others.map keys.count).insertionSort (· ≥ ·) = figures keys := by
    refine eq_figures ?_ (List.pairwise_append.mpr ⟨?_, List.pairwise_insertionSort _ _, ?_⟩)
    · rw [hfigs]
      refine ((List.perm_insertionSort _ _).append_left _).trans ?_
      rw [← List.map_append]
      exact hothers.map _
    · exact List.pairwise_map.mpr (h.sorted.imp fun hle => hle)
    · intro figure hfigure other hother
      obtain ⟨e, he, rfl⟩ := List.mem_map.mp hfigure
      obtain ⟨key, hkey, rfl⟩ := List.mem_map.mp ((List.perm_insertionSort _ _).mem_iff.mp hother)
      exact hless key hkey e he
  have hlength : board.length + others.length = keys.dedup.length := by
    rw [← hothers.length_eq, List.length_append, List.length_map]
  rw [← hall]
  rcases Nat.le_total n keys.dedup.length with hn | hn
  · have hboard : board.length = n := h.length.trans (Nat.min_eq_left hn)
    rw [← hboard, ← List.length_map (·.2), List.take_left]
  · have hboard : board.length = keys.dedup.length := h.length.trans (Nat.min_eq_right hn)
    have hnone : others = [] := List.length_eq_zero_iff.mp (by omega)
    rw [hnone, List.map_nil, List.insertionSort_nil, List.append_nil, List.take_of_length_le]
    rwa [List.length_map, hboard]

end Tally
end Tally
