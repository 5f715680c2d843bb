set_option autoImplicit false

namespace PromptLoop.Unicode

def inRanges : List (Nat × Nat) → Nat → Bool
  | [], _ => false
  | (low, high) :: rest, n => if n < low then false else n ≤ high || inRanges rest n

theorem exists_range_of_inRanges {ranges : List (Nat × Nat)} {n : Nat}
    (h : inRanges ranges n = true) : ∃ r ∈ ranges, r.1 ≤ n ∧ n ≤ r.2 := by
  induction ranges with
  | nil => simp [inRanges] at h
  | cons r rest ih =>
    obtain ⟨low, high⟩ := r
    by_cases below : n < low
    · simp [inRanges, below] at h
    · by_cases within : n ≤ high
      · exact ⟨(low, high), by simp, by omega, within⟩
      · obtain ⟨s, member, bounds⟩ := ih (by simpa [inRanges, below, within] using h)
        exact ⟨s, by simp [member], bounds⟩

end PromptLoop.Unicode
