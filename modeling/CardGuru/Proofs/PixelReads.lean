import CardGuru.Extensions.CGImage

/-! The bytes read to find out whether a picture is dark lie inside its data exactly if the last
group of four bytes is complete enough, or is not reached. -/

namespace CardGuru

namespace CGImage

variable {arithmetic : Arithmetic} {width height length index : Nat} {ptr : Nat → UInt8}

/-- Every byte that is read belongs to the data. -/
def ReadsInside (arithmetic : Arithmetic) (image : CGImage) (length : Nat) : Prop :=
  ∀ index ∈ image.reads arithmetic, index < length

/-- Groups that are cut off only at the fourth byte are read inside the data. -/
private theorem readsInside_of_mod (fits : length % 4 = 0 ∨ length % 4 = 3) :
    (ofBytes width height length ptr).ReadsInside arithmetic length := by
  intro index read
  obtain ⟨i, looked, place⟩ := mem_reads_ofBytes.mp read
  -- The group starts at a multiple of four below the length.
  have listed := Counting.examined_subset looked
  rw [stride_four] at listed
  obtain ⟨group, member, rfl⟩ := List.mem_map.mp listed
  have below := List.mem_range.mp member
  omega

/-- A cut group is the last one. -/
private theorem stride_of_cut (cut : length % 4 = 1 ∨ length % 4 = 2) :
    stride 0 length 4 =
      ((List.range (length / 4)).map fun group => 4 * group) ++ [4 * (length / 4)] := by
  -- The whole groups come first, then the one that is cut.
  have groups : (length + 3) / 4 = length / 4 + 1 := by omega
  rw [stride_four, groups, List.range_succ, List.map_append]
  rfl

/-- A cut group is looked at exactly if the groups in front of it are not dark enough. -/
private theorem examined_of_cut (cut : length % 4 = 1 ∨ length % 4 = 2) (allowed : Nat) :
    Counting.examined (isDarkAt arithmetic ptr) allowed (stride 0 length 4) 0 =
      if allowed < darkGroups arithmetic ptr (length / 4) then
        Counting.examined (isDarkAt arithmetic ptr) allowed
          ((List.range (length / 4)).map fun group => 4 * group) 0
      else ((List.range (length / 4)).map fun group => 4 * group) ++ [4 * (length / 4)] := by
  -- The whole groups decide whether the loop goes that far.
  rw [stride_of_cut cut, Counting.examined_concat (Nat.zero_le _), countP_groups, Nat.zero_add]

/-- The bytes read to judge a picture lie inside its data exactly if the data end with a group that is
cut off at the fourth byte at most, or the groups in front of the last one are dark enough, in
whatever arithmetic the luminance and the threshold are computed. -/
theorem reads_inside_iff (arithmetic : Arithmetic) (width height length : Nat) (ptr : Nat → UInt8) :
    (ofBytes width height length ptr).ReadsInside arithmetic length ↔
      length % 4 = 0 ∨ length % 4 = 3 ∨
        arithmetic.threshold width height < darkGroups arithmetic ptr (length / 4) := by
  by_cases fits : length % 4 = 0 ∨ length % 4 = 3
  · exact iff_of_true (readsInside_of_mod fits) (by omega)
  have cut : length % 4 = 1 ∨ length % 4 = 2 := by omega
  have looked := @examined_of_cut arithmetic length ptr cut (arithmetic.threshold width height)
  by_cases leaves : arithmetic.threshold width height < darkGroups arithmetic ptr (length / 4)
  · refine iff_of_true ?_ (.inr (.inr leaves))
    intro index read
    obtain ⟨i, member, place⟩ := mem_reads_ofBytes.mp read
    -- The loop is left among the whole groups.
    rw [looked, if_pos leaves] at member
    obtain ⟨group, listed, rfl⟩ := List.mem_map.mp (Counting.examined_subset member)
    have below := List.mem_range.mp listed
    omega
  · refine iff_of_false ?_ (by omega)
    intro inside
    -- The cut group is looked at, and its third byte is missing.
    have reached : 4 * (length / 4) ∈
        Counting.examined (isDarkAt arithmetic ptr) (arithmetic.threshold width height)
          (stride 0 length 4) 0 := by
      rw [looked, if_neg leaves]
      exact List.mem_append_right _ List.mem_cons_self
    have read := inside _ (mem_reads_ofBytes.mpr ⟨_, reached, .inr (.inr rfl)⟩)
    omega

/-- A grey picture of one byte is read behind its end, so no arithmetic keeps the reads inside. -/
theorem single_byte_read_behind :
    ¬ ∃ arithmetic : Arithmetic, ∀ (width height length : Nat) (ptr : Nat → UInt8),
      (ofBytes width height length ptr).ReadsInside arithmetic length := by
  rintro ⟨arithmetic, always⟩
  -- The only group has one byte, but three are read before any of them is judged.
  have read : 2 ∈ (ofBytes 1 1 1 fun _ => 128).reads arithmetic := by
    rw [mem_reads_ofBytes]
    exact ⟨0, by simp [stride, Counting.examined], .inr (.inr rfl)⟩
  have inside := always 1 1 1 (fun _ => 128) 2 read
  omega

end CGImage

end CardGuru
