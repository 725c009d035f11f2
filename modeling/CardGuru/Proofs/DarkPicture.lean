import CardGuru.Extensions.CGImage

/-! In exact arithmetic a padded picture is dark by its pixels as long as the padding does not tip the
balance. -/

namespace CardGuru

/-- A picture with four bytes for each pixel, row by row, and padding at the end of each row. -/
structure Bitmap where
  width : Nat
  height : Nat
  bytesPerRow : Nat
  /-- The bytes of all rows, and the memory behind them. -/
  bytes : Nat → UInt8
  aligned : bytesPerRow % 4 = 0
  wide : 4 * width ≤ bytesPerRow

namespace Bitmap

/-- The picture as the program gets it. -/
def image (bitmap : Bitmap) : CGImage :=
  .ofBytes bitmap.width bitmap.height (bitmap.height * bitmap.bytesPerRow) bitmap.bytes

/-- Whether a group of four bytes of a row is dark. -/
def isDarkGroup (bitmap : Bitmap) (row column : Nat) : Bool :=
  CGImage.isDarkAt .exact bitmap.bytes (row * bitmap.bytesPerRow + 4 * column)

/-- The number of dark pixels. -/
def darkPixels (bitmap : Bitmap) : Nat :=
  (Counting.grid bitmap.height bitmap.width).countP fun place =>
    bitmap.isDarkGroup place.1 place.2

/-- The number of groups in the padding that would be dark if they were pixels. -/
def darkPadding (bitmap : Bitmap) : Nat :=
  -- The padding of a row starts behind its last pixel.
  (Counting.grid bitmap.height (bitmap.bytesPerRow / 4 - bitmap.width)).countP fun place =>
    bitmap.isDarkGroup place.1 (bitmap.width + place.2)

/-- The picture is dark: more than the allowed number of its pixels are. -/
def IsDark (bitmap : Bitmap) : Prop :=
  CGImage.Arithmetic.exact.threshold bitmap.width bitmap.height < bitmap.darkPixels

/-- The groups of all rows together are as many as the groups of the data. -/
private theorem groups_eq (bitmap : Bitmap) :
    (bitmap.height * bitmap.bytesPerRow + 3) / 4 = bitmap.height * (bitmap.bytesPerRow / 4) := by
  -- Rows consist of whole groups.
  have whole : bitmap.bytesPerRow = 4 * (bitmap.bytesPerRow / 4) := by
    have := bitmap.aligned
    omega
  have total : bitmap.height * bitmap.bytesPerRow =
      4 * (bitmap.height * (bitmap.bytesPerRow / 4)) := by
    rw [Nat.mul_left_comm, ← whole]
  omega

/-- The dark groups of the data are the dark pixels and the dark groups of the padding. -/
theorem darkGroups_eq (bitmap : Bitmap) :
    CGImage.darkGroups .exact bitmap.bytes (bitmap.height * (bitmap.bytesPerRow / 4)) =
      bitmap.darkPixels + bitmap.darkPadding := by
  have whole : bitmap.bytesPerRow = 4 * (bitmap.bytesPerRow / 4) := by
    have := bitmap.aligned
    omega
  have parts : bitmap.bytesPerRow / 4 =
      bitmap.width + (bitmap.bytesPerRow / 4 - bitmap.width) := by
    have := bitmap.wide
    omega
  have inRow : ∀ row column, CGImage.isDarkAt .exact bitmap.bytes
      (4 * (row * (bitmap.bytesPerRow / 4) + column)) = bitmap.isDarkGroup row column := by
    intro row column
    have start : 4 * (row * (bitmap.bytesPerRow / 4)) = row * bitmap.bytesPerRow := by
      rw [Nat.mul_left_comm, ← whole]
    rw [isDarkGroup, Nat.mul_add, start]
  -- Each row is counted up to its last pixel and from there on.
  rw [CGImage.darkGroups, Counting.countP_range_mul]
  simp only [inRow]
  conv_lhs => rw [parts]
  exact Counting.countP_grid_add (fun place => bitmap.isDarkGroup place.1 place.2) _ _ _

/-- The program counts the padding as if it consisted of pixels. -/
theorem isDark_image (bitmap : Bitmap) :
    bitmap.image.isDark .exact = true ↔
      CGImage.Arithmetic.exact.threshold bitmap.width bitmap.height <
        bitmap.darkPixels + bitmap.darkPadding := by
  -- All groups of the data are counted, row by row.
  rw [image, CGImage.isDark_ofBytes, groups_eq, darkGroups_eq]

/-- A picture without padding is judged by its pixels. -/
theorem isDark_of_packed (bitmap : Bitmap) (packed : bitmap.bytesPerRow = 4 * bitmap.width) :
    bitmap.image.isDark .exact = true ↔ bitmap.IsDark := by
  -- No group of a row lies behind its last pixel.
  have none : bitmap.bytesPerRow / 4 - bitmap.width = 0 := by omega
  have empty : bitmap.darkPadding = 0 := by simp [darkPadding, Counting.grid, none]
  rw [isDark_image, empty, IsDark, Nat.add_zero]

/-- The program judges a picture by its pixels exactly if dark padding does not lift a picture that is
not dark over the threshold. -/
theorem isDark_by_pixels_iff (bitmap : Bitmap) :
    (bitmap.image.isDark .exact = true ↔ bitmap.IsDark) ↔
      (bitmap.darkPixels ≤ CGImage.Arithmetic.exact.threshold bitmap.width bitmap.height →
        bitmap.darkPixels + bitmap.darkPadding ≤
          CGImage.Arithmetic.exact.threshold bitmap.width bitmap.height) := by
  rw [isDark_image, IsDark]
  constructor
  · intro same within
    -- A picture lifted over the threshold would be dark by its pixels already.
    by_contra lifted
    have dark := same.mp (by omega)
    omega
  · intro fits
    constructor
    · intro above
      by_contra within
      have := fits (by omega)
      omega
    · intro dark
      omega

/-- A white pixel with black padding behind it. -/
def paddedPixel : Bitmap where
  width := 1
  height := 1
  bytesPerRow := 8
  bytes := fun index => if index < 4 then 255 else 0
  aligned := by decide
  wide := by decide

/-- A white picture is taken for a dark one because of its padding. -/
theorem paddedPixel_misjudged :
    ¬ ∀ bitmap : Bitmap, bitmap.image.isDark .exact = true ↔ bitmap.IsDark := by
  intro always
  have judged : paddedPixel.image.isDark .exact = true := by decide +kernel
  -- None of the pixels is dark.
  have bright : ¬ paddedPixel.IsDark := by
    unfold IsDark
    decide +kernel
  exact bright ((always paddedPixel).mp judged)

end Bitmap

end CardGuru
