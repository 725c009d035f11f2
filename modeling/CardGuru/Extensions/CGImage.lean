import CardGuru.Lib.Counting

/-! Whether a picture is dark, and which bytes of the picture are read to find out. -/

namespace CardGuru

/-- The bytes of a picture. -/
structure CFData where
  length : Nat
  /-- The bytes and the memory behind them, unless there is nothing to point at. -/
  bytePtr : Option (Nat → UInt8)

/-- A picture in memory, as far as its brightness is concerned. -/
structure CGImage where
  width : Nat
  height : Nat
  /-- The data of the data provider, if there are any. -/
  data : Option CFData

namespace CGImage

/-- The indices from one number up to another one, in steps. -/
def stride (start stop by_ : Nat) : List Nat :=
  List.range' start ((stop - start + by_ - 1) / by_) by_

/-- Read a byte, and remember the index. -/
def read (ptr : Nat → UInt8) (index : Nat) : StateM (List Nat) UInt8 :=
  -- Nothing checks the index.
  fun reads => (ptr index, reads ++ [index])

/-- The arithmetic of luminances and thresholds, which the program leaves to doubles. -/
structure Arithmetic where
  /-- Whether the luminance of a colour is below 150. -/
  isDark : UInt8 → UInt8 → UInt8 → Bool
  /-- Forty-five percent of the pixels of a width and a height, rounded down. -/
  threshold : Nat → Nat → Nat

/-- The luminance of a pixel, in thousandths. -/
def luminance (r g b : UInt8) : Nat := 299 * r.toNat + 587 * g.toNat + 114 * b.toNat

/-- The arithmetic without rounding errors. -/
def Arithmetic.exact : Arithmetic where
  isDark := fun r g b => luminance r g b < 150000
  threshold := fun width height => width * height * 45 / 100

/-- Go through the groups of four bytes until more than a threshold of them are dark. -/
def exceedsDarkPixels (arithmetic : Arithmetic) (ptr : Nat → UInt8) (threshold : Nat) :
    List Nat → Nat → StateM (List Nat) Bool
  -- The loop is left early, with the answer that the picture is dark.
  | [], _ => return false
  | i :: later, darkPixels => do
    let r ← read ptr i
    let g ← read ptr (i + 1)
    let b ← read ptr (i + 2)
    if arithmetic.isDark r g b then
      if threshold < darkPixels + 1 then return true
      else exceedsDarkPixels arithmetic ptr threshold later (darkPixels + 1)
    else exceedsDarkPixels arithmetic ptr threshold later darkPixels

/-- Decide whether a picture is dark. -/
def look (arithmetic : Arithmetic) (image : CGImage) : StateM (List Nat) Bool :=
  -- A picture without data, or without a pointer to them, counts as bright.
  match image.data with
  | none => return false
  | some imageData =>
    match imageData.bytePtr with
    | none => return false
    | some ptr =>
      exceedsDarkPixels arithmetic ptr (arithmetic.threshold image.width image.height)
        (stride 0 imageData.length 4) 0

/-- Whether a picture is dark. -/
def isDark (arithmetic : Arithmetic) (image : CGImage) : Bool := (image.look arithmetic []).1

/-- The indices of the bytes that are read to decide whether a picture is dark. -/
def reads (arithmetic : Arithmetic) (image : CGImage) : List Nat := (image.look arithmetic []).2

/-- Whether three bytes from an index on are those of a dark pixel. -/
def isDarkAt (arithmetic : Arithmetic) (ptr : Nat → UInt8) (i : Nat) : Bool :=
  arithmetic.isDark (ptr i) (ptr (i + 1)) (ptr (i + 2))

/-- How many of the first groups of four bytes are dark. -/
def darkGroups (arithmetic : Arithmetic) (ptr : Nat → UInt8) (count : Nat) : Nat :=
  (List.range count).countP fun group => isDarkAt arithmetic ptr (4 * group)

/-- A picture with the given bytes, and whatever comes behind them in memory. -/
def ofBytes (width height length : Nat) (ptr : Nat → UInt8) : CGImage where
  width := width
  height := height
  data := some { length := length, bytePtr := some ptr }

variable {arithmetic : Arithmetic}

/-- Reading a byte hands it over and adds its index. -/
@[simp] theorem read_bind {α : Type} (ptr : Nat → UInt8) (index : Nat)
    (next : UInt8 → StateM (List Nat) α) (reads : List Nat) :
    (read ptr index >>= next) reads = next (ptr index) (reads ++ [index]) := rfl

/-- One round of the loop reads the three bytes of a group, and leaves the loop if the group is one
dark group too many. -/
theorem exceedsDarkPixels_cons (ptr : Nat → UInt8) (threshold i : Nat) (later : List Nat)
    (darkPixels : Nat) (reads : List Nat) :
    exceedsDarkPixels arithmetic ptr threshold (i :: later) darkPixels reads =
      if isDarkAt arithmetic ptr i then
        if threshold < darkPixels + 1 then (true, reads ++ [i, i + 1, i + 2])
        else
          exceedsDarkPixels arithmetic ptr threshold later (darkPixels + 1)
            (reads ++ [i, i + 1, i + 2])
      else exceedsDarkPixels arithmetic ptr threshold later darkPixels (reads ++ [i, i + 1, i + 2]) := by
  -- The branches of the loop depend on the bytes read, and not on what was read before.
  simp only [exceedsDarkPixels, read_bind, isDarkAt, List.append_assoc,
    List.cons_append, List.nil_append]
  by_cases dark : arithmetic.isDark (ptr i) (ptr (i + 1)) (ptr (i + 2)) = true
  · simp only [dark, if_true]
    split <;> rfl
  · simp only [dark]
    rfl

/-- The loop counts dark groups with an early exit, and reads three bytes of each group that it
looks at. -/
theorem exceedsDarkPixels_eq (ptr : Nat → UInt8) (threshold : Nat) (indices : List Nat)
    (darkPixels : Nat) (reads : List Nat) :
    exceedsDarkPixels arithmetic ptr threshold indices darkPixels reads =
      (Counting.exceeds (isDarkAt arithmetic ptr) threshold indices darkPixels,
        reads ++ (Counting.examined (isDarkAt arithmetic ptr) threshold indices darkPixels).flatMap
          fun i => [i, i + 1, i + 2]) := by
  -- The induction is on the groups that are left; what was read before only grows.
  induction indices generalizing darkPixels reads with
  | nil =>
    simp only [exceedsDarkPixels, Counting.exceeds, Counting.examined, List.flatMap_nil,
      List.append_nil]
    rfl
  | cons i later ih =>
    rw [exceedsDarkPixels_cons]
    by_cases dark : isDarkAt arithmetic ptr i = true
    · by_cases leaves : threshold < darkPixels + 1
      · simp [Counting.exceeds, Counting.examined, dark, leaves]
      · simp [Counting.exceeds, Counting.examined, dark, leaves, ih]
    · simp [Counting.exceeds, Counting.examined, dark, ih]

/-- The groups of four bytes, the last one of which may be cut off. -/
theorem stride_four (length : Nat) :
    stride 0 length 4 = (List.range ((length + 3) / 4)).map fun group => 4 * group := by
  -- The groups start at the multiples of four below the length.
  apply List.ext_getElem
  · simp [stride]
  · intro group inside outside
    simp [stride]

/-- Dark groups are counted group by group. -/
theorem countP_groups (ptr : Nat → UInt8) (count : Nat) :
    ((List.range count).map fun group => 4 * group).countP (isDarkAt arithmetic ptr) =
      darkGroups arithmetic ptr count := by
  -- Group number n starts at byte 4 * n.
  rw [List.countP_map]
  rfl

/-- A picture is dark if more of its groups are dark than the threshold allows. -/
theorem isDark_ofBytes (width height length : Nat) (ptr : Nat → UInt8) :
    (ofBytes width height length ptr).isDark arithmetic = true ↔
      arithmetic.threshold width height < darkGroups arithmetic ptr ((length + 3) / 4) := by
  -- The loop starts with no dark pixel, which no threshold forbids.
  show (exceedsDarkPixels arithmetic ptr (arithmetic.threshold width height) (stride 0 length 4) 0
    []).1 = true ↔ _
  rw [exceedsDarkPixels_eq, Counting.exceeds_iff (Nat.zero_le _), stride_four, countP_groups]
  simp

/-- The bytes that are read are the first three of each group that the loop looks at. -/
theorem mem_reads_ofBytes {width height length index : Nat} {ptr : Nat → UInt8} :
    index ∈ (ofBytes width height length ptr).reads arithmetic ↔
      ∃ i ∈ Counting.examined (isDarkAt arithmetic ptr) (arithmetic.threshold width height)
        (stride 0 length 4) 0,
        index = i ∨ index = i + 1 ∨ index = i + 2 := by
  -- Nothing was read before the loop.
  show index ∈ (exceedsDarkPixels arithmetic ptr (arithmetic.threshold width height)
    (stride 0 length 4) 0 []).2 ↔ _
  rw [exceedsDarkPixels_eq]
  simp

end CGImage

end CardGuru
