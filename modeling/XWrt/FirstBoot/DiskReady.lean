import XWrt.Foundation.ShellArithmetic

/-!
# Partitions at the first boot

`do_disk_ready` in `disk_ready.preinit`. Behind the partitions of the image it
places one for the overlay and one for data, with gaps of one mebibyte. The size
of the overlay comes from the kernel's command line, and the end of the last
partition from the third column of `fdisk -l`, which is a start for a partition of
a DOS table that is marked as active.
-/

namespace XWrt.FirstBoot

open Foundation.ShellArithmetic

/-! ## Disks -/

/-- A partition's first and last sector. -/
structure Partition where
  start : ℤ
  stop : ℤ
  deriving DecidableEq

/-- `disktype` -/
inductive DiskType where
  | gpt
  | dos
  deriving DecidableEq

/-- A line of `fdisk -l`. The listing of a DOS table has a star in front of the start of an active partition. -/
structure Line extends Partition where
  active : Bool
  deriving DecidableEq

/-- A disk as `fdisk -l` lists it. The kernel has no sectors below 512 bytes, and counts a disk's
bytes with 63 bits. -/
structure Disk where
  type : DiskType
  sectorSize : ℕ
  sectors : ℕ
  partitions : List Line
  sectorSize_ge : 512 ≤ sectorSize
  bytes_lt : sectors * sectorSize < 2 ^ 63
  inside : ∀ part ∈ partitions, 0 ≤ part.start ∧ part.start ≤ part.stop ∧ part.stop < sectors

/-- What the board decides, the size of the overlay, and whether there are two files or more where the script runs. -/
structure Setup where
  isX86 : Bool
  diskpartNum1 : ℕ
  overlaySize : ℤ
  files : Bool

/-- `diskpart_num1`, which a GPT changes on a PC -/
def Setup.expected (setup : Setup) : DiskType → ℕ
  | .gpt => if setup.isX86 then 3 else setup.diskpartNum1
  | .dos => setup.diskpartNum1

namespace Line

variable (type : DiskType) (line : Line)

/-- The third word of the line. -/
def third : ℤ :=
  match type with
  | .gpt => line.stop
  | .dos => if line.active then line.start else line.stop

/-- `$3` after `set $(...)`. The shell expands the star to the names of the files, of which the second is a variable
that is not set. -/
def thirdSet (files : Bool) : ℤ :=
  match type with
  | .gpt => line.stop
  | .dos => if line.active && files then 0 else line.third .dos

end Line

namespace Disk

/-- `disksize` -/
def bytes (disk : Disk) : ℕ := disk.sectors * disk.sectorSize

/-- The loop that looks for `LASTDEV`: the last line with a larger third word than those before it, and the word `O`. -/
def lastDev (disk : Disk) : Option Line × ℤ :=
  disk.partitions.foldl (fun last line => if last.2 < line.third disk.type then (some line, line.third disk.type) else last) (none, 0)

/-- `sda4_end` or `sda2_end`: `$3` of the line of `LASTDEV`, or `gap_mask`. -/
def lastStop (disk : Disk) (files : Bool) (gapSize : ℤ) : ℤ :=
  match disk.lastDev.1 with
  | none => sub gapSize 1
  | some line => line.thirdSet disk.type files

end Disk

/-! ## The program -/

structure Layout where
  overlay : Partition
  data : Partition
  deriving DecidableEq

/-- `$(((end + 1 + gap_mask) / gap_size * gap_size + gap_size))` -/
def startBehind (gapSize stop : ℤ) : Option ℤ :=
  (div (add (add stop 1) (sub gapSize 1)) gapSize).map fun gaps => add (mul gaps gapSize) gapSize

/-- The GPT has ` + gap_size` once more in front of the overlay. -/
def overlayStart (type : DiskType) (gapSize firstStart : ℤ) : ℤ :=
  match type with
  | .gpt => add firstStart gapSize
  | .dos => firstStart

/-- `sda5` and `sda6`, or `sda3` and `sda4` -/
def layout (setup : Setup) (disk : Disk) : Option Layout :=
  -- `test $diskpart = $diskpart_num1`
  if disk.partitions.length ≠ setup.expected disk.type then none
  -- `<= 2GiB && return`
  else if disk.bytes ≤ 2147483648 then none
  else do
    let overlaySize := mul (mul setup.overlaySize 1024) 1024
    let sectorSize : ℤ := if 0 < disk.sectorSize then disk.sectorSize else 512
    let gapSize ← div (mul 1024 1024) sectorSize
    let firstStart ← startBehind gapSize (disk.lastStop setup.files gapSize)
    let overlayStart := overlayStart disk.type gapSize firstStart
    let overlaySectors ← div overlaySize sectorSize
    let overlayStop := sub (add overlayStart overlaySectors) 1
    let dataStart ← startBehind gapSize overlayStop
    let gaps ← div disk.sectors gapSize
    let dataStop := sub (sub (mul gaps gapSize) gapSize) 1
    some ⟨⟨overlayStart, overlayStop⟩, ⟨dataStart, dataStop⟩⟩

/-! ## Sound layouts -/

namespace Partition

def Apart (part other : Partition) : Prop := part.stop < other.start ∨ other.stop < part.start

instance (part other : Partition) : Decidable (part.Apart other) := inferInstanceAs (Decidable (_ ∨ _))

end Partition

namespace Disk

variable (disk : Disk)

/-- The sectors of one mebibyte. -/
def gap : ℕ := 2 ^ 20 / disk.sectorSize

/-- The sectors that 128 entries of a GPT take. -/
def tableSectors : ℕ := 16384 ⌈/⌉ disk.sectorSize

/-- The first and the last sector that a partition may have. A GPT stands at both ends of the disk, with
a header each and one more sector at its start; a DOS table is one sector, and counts with 32 bits. -/
def usable : Partition :=
  match disk.type with
  | .gpt => ⟨2 + disk.tableSectors, disk.sectors - 2 - disk.tableSectors⟩
  | .dos => ⟨1, min (disk.sectors - 1) (2 ^ 32 - 1)⟩

/-- The layout is aligned and within the disk, and nothing overlaps. -/
structure Sound (layout : Layout) : Prop where
  aligned : ∀ part ∈ [layout.overlay, layout.data], (disk.gap : ℤ) ∣ part.start
  ordered : ∀ part ∈ [layout.overlay, layout.data], part.start ≤ part.stop
  apart : layout.overlay.Apart layout.data
  beside : ∀ part ∈ [layout.overlay, layout.data], ∀ old ∈ disk.partitions, part.Apart old.toPartition
  within : ∀ part ∈ [layout.overlay, layout.data], disk.usable.start ≤ part.start ∧ part.stop ≤ disk.usable.stop

end Disk

/-! ## Room for the overlay -/

/-- The overlay's size in bytes, as 64 bits hold it. -/
def overlayBytes (overlaySize : ℤ) : ℤ := wrap (overlaySize * 2 ^ 20)

/-- The sectors in front of the first gap, as the script counts them. -/
def Disk.used (disk : Disk) (files : Bool) : ℕ :=
  match disk.lastDev.1 with
  | none => disk.gap
  | some line => (line.thirdSet disk.type files).toNat + 1

namespace DiskType

/-- The largest sector with which the layout works. -/
def largestSector : DiskType → ℕ
  | gpt => 2 ^ 19
  | dos => 2 ^ 20

/-- The gaps in front of the overlay. -/
def lead : DiskType → ℕ
  | gpt => 2
  | dos => 1

end DiskType

section Values

variable (setup : Setup) (disk : Disk)

/-- The first sector of the overlay. -/
def overlayFirst : ℕ := (disk.used setup.files ⌈/⌉ disk.gap + disk.type.lead) * disk.gap

/-- The sectors of the overlay. -/
def overlayCount : ℕ := (overlayBytes setup.overlaySize).toNat / disk.sectorSize

/-- The first sector of the data. -/
def dataFirst : ℕ := ((overlayFirst setup disk + overlayCount setup disk) ⌈/⌉ disk.gap + 1) * disk.gap

/-- The sector behind the data. -/
def dataEnd : ℕ := (disk.sectors / disk.gap - 1) * disk.gap

/-- The overlay has a sector at least, leaves one mebibyte to the data, and the partitions of the image stay in front
of it or in what the layout leaves free. -/
structure Room : Prop where
  sector : disk.sectorSize ≤ disk.type.largestSector
  some : disk.sectorSize ≤ overlayBytes setup.overlaySize
  fits : disk.used setup.files ⌈/⌉ disk.gap + overlayCount setup disk ⌈/⌉ disk.gap + disk.type.lead + 3 ≤ disk.sectors / disk.gap
  addressable : disk.type = .dos → dataEnd disk ≤ 2 ^ 32
  clear : ∀ old ∈ disk.partitions,
    old.stop < overlayFirst setup disk ∨ overlayFirst setup disk + overlayCount setup disk ≤ old.start ∧ old.stop < dataFirst setup disk ∨
      dataEnd disk ≤ old.start

end Values

/-! ## What is computed -/

namespace Disk

variable (disk : Disk)

/-- The loop finds a line with the largest third word, or keeps what it started from. -/
theorem foldl_third (type : DiskType) (lines : List Line) (first : Option Line × ℤ) :
    let last := lines.foldl (fun last line => if last.2 < line.third type then (some line, line.third type) else last) first
    first.2 ≤ last.2 ∧ (∀ line ∈ lines, line.third type ≤ last.2) ∧ (last = first ∨ ∃ line ∈ lines, last = (some line, line.third type)) := by
  induction lines generalizing first with
  | nil => exact ⟨le_rfl, List.forall_mem_nil _, .inl rfl⟩
  | cons line lines ih =>
      simp only [List.foldl_cons, List.forall_mem_cons, List.exists_mem_cons_iff]
      obtain ⟨grows, above, found⟩ := ih (if first.2 < line.third type then (some line, line.third type) else first)
      split at grows
      next larger =>
          rw [if_pos larger] at above found ⊢
          exact ⟨larger.le.trans grows, ⟨grows, above⟩, .inr found⟩
      next notLarger =>
          rw [if_neg notLarger] at above found ⊢
          exact ⟨grows, ⟨(not_lt.mp notLarger).trans grows, above⟩, found.imp_right .inr⟩

theorem mem_of_lastDev {line : Line} (last : disk.lastDev.1 = some line) : line ∈ disk.partitions := by
  rcases (foldl_third disk.type disk.partitions (none, 0)).2.2 with same | ⟨other, member, same⟩
  · rw [lastDev, same] at last
    cases last
  · rw [lastDev, same] at last
    exact Option.some.inj last ▸ member

theorem thirdSet_range (files : Bool) {line : Line} (member : line ∈ disk.partitions) :
    0 ≤ line.thirdSet disk.type files ∧ line.thirdSet disk.type files < disk.sectors := by
  have inside := disk.inside line member
  cases kind : disk.type with
  | gpt =>
      rw [Line.thirdSet]
      omega
  | dos =>
      rw [Line.thirdSet]
      split
      · omega
      · rw [Line.third]
        split
        · omega
        · omega

theorem lastStop_eq (files : Bool) (small : disk.gap ≤ 2 ^ 11) : disk.lastStop files disk.gap + 1 = (disk.used files : ℤ) := by
  rw [lastStop, used]
  split
  next =>
    rw [sub_of_inRange ⟨by omega, by omega⟩]
    omega
  next line last =>
    have range := disk.thirdSet_range files (disk.mem_of_lastDev last)
    omega

theorem used_le (files : Bool) : disk.used files ≤ disk.gap + disk.sectors := by
  rw [used]
  split
  next => omega
  next line last =>
    have range := disk.thirdSet_range files (disk.mem_of_lastDev last)
    omega

theorem sectors_lt : disk.sectors < 2 ^ 54 := by
  have bytes := disk.bytes_lt
  have small := Nat.mul_le_mul_left disk.sectors disk.sectorSize_ge
  omega

theorem gap_le : disk.gap ≤ 2 ^ 11 := by
  rw [gap]
  exact (Nat.div_le_div_left disk.sectorSize_ge (by decide)).trans (by decide)

theorem gap_pos (sector : disk.sectorSize ≤ 2 ^ 20) : 0 < disk.gap :=
  Nat.div_pos sector (by have := disk.sectorSize_ge; omega)

end Disk

theorem startBehind_natCast {gap : ℕ} (positive : 0 < gap) (small : gap ≤ 2 ^ 11) {n : ℕ} (inside : n < 2 ^ 56) {stop : ℤ}
    (next : stop + 1 = n) : startBehind gap stop = some (((n ⌈/⌉ gap + 1) * gap : ℕ) : ℤ) := by
  have below := ceilDiv_mul_lt positive n
  have up : add (add stop 1) (sub gap 1) = ((n + gap - 1 : ℕ) : ℤ) := by
    rw [sub_of_inRange ⟨by omega, by omega⟩, @add_of_inRange stop 1 ⟨by omega, by omega⟩, add_of_inRange ⟨by omega, by omega⟩]
    omega
  have gaps : mul ((n + gap - 1) / gap : ℕ) gap = (((n ⌈/⌉ gap) * gap : ℕ) : ℤ) := by
    rw [← Nat.ceilDiv_eq_add_pred_div, mul_of_inRange, Nat.cast_mul]
    rw [← Nat.cast_mul]
    exact ⟨by omega, by omega⟩
  rw [startBehind, up, div_natCast ⟨by omega, by omega⟩ positive, Option.map_some, gaps, add_of_inRange ⟨by omega, by omega⟩, Nat.add_mul,
    Nat.one_mul, Nat.cast_add]

theorem startBehind_isSome {gap : ℤ} (positive : 0 < gap) (stop : ℤ) : ∃ start, startBehind gap stop = some start := by
  rw [startBehind, div, if_neg positive.ne']
  exact ⟨_, rfl⟩

theorem overlayStart_natCast (type : DiskType) {gap gaps : ℕ} (inside : (gaps + 2) * gap < 2 ^ 62) :
    overlayStart type gap ((gaps + 1) * gap : ℕ) = (((gaps + type.lead) * gap : ℕ) : ℤ) := by
  cases type with
  | gpt =>
      have more : (gaps + 2) * gap = (gaps + 1) * gap + gap := Nat.succ_mul ..
      rw [overlayStart, DiskType.lead, add_of_inRange ⟨by omega, by omega⟩, more, Nat.cast_add]
  | dos => rfl

theorem stopBefore {gap gaps : ℕ} (small : gap ≤ 2 ^ 11) (inside : gaps * gap < 2 ^ 54) :
    sub (sub (mul gaps gap) gap) 1 = ((gaps * gap : ℕ) : ℤ) - gap - 1 := by
  have product : mul gaps gap = ((gaps * gap : ℕ) : ℤ) := by
    rw [mul_of_inRange, Nat.cast_mul]
    rw [← Nat.cast_mul]
    exact ⟨by omega, by omega⟩
  rw [product, @sub_of_inRange _ gap ⟨by omega, by omega⟩, sub_of_inRange ⟨by omega, by omega⟩]

/-- The overlay's sectors are counted without an overflow. -/
theorem overlaySectors_range (disk : Disk) (overlaySize : ℤ) :
    -2 ^ 54 ≤ (overlayBytes overlaySize).tdiv disk.sectorSize ∧ (overlayBytes overlaySize).tdiv disk.sectorSize ≤ 2 ^ 54 := by
  obtain ⟨low, high⟩ := inRange_wrap (overlaySize * 2 ^ 20)
  have quotient : ((overlayBytes overlaySize).tdiv disk.sectorSize).natAbs = (overlayBytes overlaySize).natAbs / disk.sectorSize := by
    rw [Int.natAbs_tdiv, Int.natAbs_natCast]
    rfl
  have bytes : (overlayBytes overlaySize).natAbs ≤ 2 ^ 63 := by
    rw [overlayBytes]
    omega
  have small : (overlayBytes overlaySize).natAbs / disk.sectorSize ≤ 2 ^ 63 / 512 :=
    (Nat.div_le_div_right bytes).trans (Nat.div_le_div_left disk.sectorSize_ge (by decide))
  refine ⟨?_, ?_⟩
  · omega
  · omega

/-- The values that are computed, for every size of the overlay. -/
theorem layout_eq {setup : Setup} {disk : Disk} (counted : disk.partitions.length = setup.expected disk.type)
    (large : 2147483648 < disk.bytes) (sector : disk.sectorSize ≤ 2 ^ 20) :
    let overlaySectors := (overlayBytes setup.overlaySize).tdiv disk.sectorSize
    let start := overlayFirst setup disk
    ∃ dataStart : ℤ,
      layout setup disk =
        some ⟨⟨start, start + overlaySectors - 1⟩, ⟨dataStart, ((disk.sectors / disk.gap * disk.gap : ℕ) : ℤ) - disk.gap - 1⟩⟩ ∧
      ∀ count : ℕ, overlaySectors = count → dataStart = ((((start + count) ⌈/⌉ disk.gap + 1) * disk.gap : ℕ) : ℤ) := by
  intro overlaySectors start
  have ge := disk.sectorSize_ge
  have positive := disk.gap_pos sector
  have small := disk.gap_le
  have sectors := disk.sectors_lt
  obtain ⟨fewest, most⟩ : -2 ^ 54 ≤ overlaySectors ∧ overlaySectors ≤ 2 ^ 54 := overlaySectors_range disk setup.overlaySize
  have inhabited : 0 < disk.sectors := by
    rw [Disk.bytes] at large
    exact Nat.pos_of_mul_pos_right (by omega : 0 < disk.sectors * disk.sectorSize)
  have gapSize : div (mul 1024 1024) disk.sectorSize = some (disk.gap : ℤ) := by
    rw [mul_of_inRange ⟨by decide, by decide⟩]
    exact @div_natCast 1048576 ⟨by decide, by decide⟩ disk.sectorSize (by omega)
  have lastStop := disk.lastStop_eq setup.files small
  have usedLe := disk.used_le setup.files
  have first := startBehind_natCast positive small (by omega) lastStop
  have whole := ceilDiv_mul_lt positive (disk.used setup.files)
  have startEq : start = disk.used setup.files ⌈/⌉ disk.gap * disk.gap + disk.type.lead * disk.gap := Nat.add_mul ..
  have startLt : start < 2 ^ 55 + 2 ^ 13 := by
    have lead : disk.type.lead ≤ 2 := by
      cases disk.type with
      | gpt => exact le_rfl
      | dos => exact Nat.le_succ 1
    have gaps := Nat.mul_le_mul_right disk.gap lead
    omega
  have overlayStart : overlayStart disk.type disk.gap ((disk.used setup.files ⌈/⌉ disk.gap + 1) * disk.gap : ℕ) = (start : ℤ) :=
    overlayStart_natCast disk.type (by rw [Nat.add_mul]; omega)
  have overlay : div (mul (mul setup.overlaySize 1024) 1024) disk.sectorSize = some overlaySectors := by
    rw [mul_mul, div_of_pos (inRange_wrap _) (by omega)]
    rfl
  have overlayStop : sub (add start overlaySectors) 1 = start + overlaySectors - 1 := by
    rw [add_of_inRange ⟨by omega, by omega⟩, sub_of_inRange ⟨by omega, by omega⟩]
  have gaps : div disk.sectors disk.gap = some ((disk.sectors / disk.gap : ℕ) : ℤ) := div_natCast ⟨by omega, by omega⟩ positive
  have under := Nat.div_mul_le_self disk.sectors disk.gap
  have dataStop := stopBefore small (under.trans_lt sectors)
  obtain ⟨dataStart, second⟩ := startBehind_isSome (Int.natCast_pos.mpr positive) (start + overlaySectors - 1)
  refine ⟨dataStart, ?_, ?_⟩
  · rw [layout, if_neg (not_not.mpr counted), if_neg (by omega)]
    simp only [if_pos (by omega : 0 < disk.sectorSize), gapSize, Option.bind_eq_bind, Option.bind_some, first, overlayStart, overlay, overlayStop,
      second, gaps, dataStop]
  · intro count same
    have counted := @startBehind_natCast disk.gap positive small (start + count) (by omega) (start + overlaySectors - 1) (by omega)
    rw [second] at counted
    exact Option.some.inj counted

/-- A larger sector makes the gap a division by zero. -/
theorem layout_eq_none (setup : Setup) {disk : Disk} (sector : 2 ^ 20 < disk.sectorSize) : layout setup disk = none := by
  have gapSize : div (mul 1024 1024) disk.sectorSize = some 0 := by
    rw [mul_of_inRange ⟨by decide, by decide⟩]
    refine (@div_natCast 1048576 ⟨by decide, by decide⟩ disk.sectorSize (by omega)).trans ?_
    rw [Nat.div_eq_of_lt (by omega : 1048576 < disk.sectorSize), Nat.cast_zero]
  have first : ∀ stop, startBehind 0 stop = none := fun stop => rfl
  rw [layout]
  split
  · rfl
  split
  · rfl
  · simp only [if_pos (by omega : 0 < disk.sectorSize), gapSize, Option.bind_eq_bind, Option.bind_some, first, Option.bind_none]

/-! ## Where the layout is sound -/

namespace Disk

variable (disk : Disk)

theorem tableSectors_pos : 0 < disk.tableSectors := by
  have ge := disk.sectorSize_ge
  have whole : 16384 ≤ disk.tableSectors * disk.sectorSize := le_ceilDiv_mul (by omega) 16384
  exact Nat.pos_of_mul_pos_right (by omega : 0 < disk.tableSectors * disk.sectorSize)

/-- A gap holds the table and its header. -/
theorem tableSectors_lt_gap (sector : disk.sectorSize ≤ 2 ^ 19) : disk.tableSectors < disk.gap := by
  have ge := disk.sectorSize_ge
  have two : 2 ≤ disk.gap := (Nat.le_div_iff_mul_le (by omega)).mpr (by omega)
  have whole : 2 ^ 20 < disk.gap * disk.sectorSize + disk.sectorSize := Nat.lt_div_mul_add (by omega)
  have table : disk.tableSectors ≤ disk.gap - 1 := by
    refine (ceilDiv_le_iff_le_mul (by omega)).mpr ?_
    rw [Nat.mul_sub_one, Nat.mul_comm]
    rcases Nat.lt_or_ge disk.sectorSize 16384 with less | more
    · omega
    · have double := Nat.mul_le_mul_right disk.sectorSize two
      omega
  omega

theorem gap_eq_one (larger : 2 ^ 19 < disk.sectorSize) (sector : disk.sectorSize ≤ 2 ^ 20) : disk.gap = 1 :=
  Nat.div_eq_of_lt_le (by omega) (by omega)

end Disk

/-- The data's partition starts one gap behind the overlay's last one. -/
theorem dataFirst_eq {setup : Setup} {disk : Disk} (positive : 0 < disk.gap) :
    dataFirst setup disk =
      (disk.used setup.files ⌈/⌉ disk.gap + disk.type.lead + overlayCount setup disk ⌈/⌉ disk.gap + 1) * disk.gap := by
  rw [dataFirst, overlayFirst, mul_add_ceilDiv positive]

/-- It has a sector exactly when the mebibytes suffice. -/
theorem ordered_iff {gap : ℕ} (positive : 0 < gap) (used gaps : ℕ) :
    (((used + 1) * gap : ℕ) : ℤ) ≤ ((gaps * gap : ℕ) : ℤ) - gap - 1 ↔ used + 3 ≤ gaps := by
  have next : (used + 1) * gap + gap = (used + 2) * gap := (Nat.succ_mul ..).symm
  have less : (used + 2) * gap < gaps * gap ↔ used + 2 < gaps := Nat.mul_lt_mul_right positive
  omega

/-- The overlay has a sector exactly when its bytes do not fill less than one. -/
theorem overlaySectors_pos_iff {bytes : ℤ} {sectorSize : ℕ} (positive : 0 < sectorSize) :
    1 ≤ bytes.tdiv sectorSize ↔ (sectorSize : ℤ) ≤ bytes := by
  rcases Int.le_total 0 bytes with nonneg | nonpos
  · rw [Int.tdiv_eq_ediv_of_nonneg nonneg, Int.le_ediv_iff_mul_le (by omega), one_mul]
  · have negative : 0 ≤ (-bytes).tdiv sectorSize := Int.tdiv_nonneg (by omega) (by omega)
    rw [Int.neg_tdiv] at negative
    omega

theorem forall_parts {holds : Partition → Prop} {part other : Partition} : (∀ each ∈ [part, other], holds each) ↔ holds part ∧ holds other := by
  rw [List.forall_mem_cons, List.forall_mem_singleton]

section Sound

variable {setup : Setup} {disk : Disk}

theorem overlayCount_eq (nonneg : 0 ≤ overlayBytes setup.overlaySize) :
    (overlayBytes setup.overlaySize).tdiv disk.sectorSize = (overlayCount setup disk : ℤ) := by
  rw [Int.tdiv_eq_ediv_of_nonneg nonneg, overlayCount, Int.natCast_div, Int.toNat_of_nonneg nonneg]

theorem room_of_sound (counted : disk.partitions.length = setup.expected disk.type) (large : 2147483648 < disk.bytes) {plan : Layout}
    (computed : layout setup disk = some plan) (sound : disk.Sound plan) : Room setup disk := by
  have ge := disk.sectorSize_ge
  have sector : disk.sectorSize ≤ 2 ^ 20 := by
    by_contra larger
    rw [layout_eq_none setup (not_le.mp larger)] at computed
    cases computed
  have positive := disk.gap_pos sector
  obtain ⟨dataStart, values, behind⟩ := layout_eq counted large sector
  rw [computed, Option.some.injEq] at values
  subst values
  have some : (disk.sectorSize : ℤ) ≤ overlayBytes setup.overlaySize := by
    have ordered := sound.ordered _ (.head _)
    refine (overlaySectors_pos_iff (by omega)).mp ?_
    simp only at ordered
    omega
  have count := @overlayCount_eq setup disk (by omega)
  have start := behind _ count
  rw [← dataFirst] at start
  have ordered := sound.ordered _ (.tail _ (.head _))
  have within := (sound.within _ (.tail _ (.head _))).2
  simp only [start] at ordered within
  refine ⟨?_, some, ?_, ?_, ?_⟩
  · cases kind : disk.type with
    | gpt =>
        by_contra larger
        have one := disk.gap_eq_one (not_le.mp larger) sector
        have table := disk.tableSectors_pos
        simp only [one, Disk.usable, kind, Nat.div_one, Nat.mul_one] at within
        omega
    | dos => exact sector
  · rw [dataFirst_eq positive, ordered_iff positive] at ordered
    omega
  · intro dos
    rw [Disk.usable, dos] at within
    have last := within.trans (min_le_right _ _)
    rw [dataEnd, Nat.sub_one_mul]
    omega
  · intro old member
    have beside := forall_parts.mp sound.beside
    have overlay := beside.1 old member
    have data := beside.2 old member
    have ordered := (disk.inside old member).2.1
    simp only [Partition.Apart, start, count] at overlay data
    rw [dataEnd, Nat.sub_one_mul]
    omega

theorem lt_overlayFirst (positive : 0 < disk.gap) : disk.used setup.files + disk.type.lead * disk.gap ≤ overlayFirst setup disk := by
  have whole := le_ceilDiv_mul positive (disk.used setup.files)
  rw [overlayFirst, Nat.add_mul]
  omega

/-- The layout keeps clear of the tables. -/
theorem within_usable (sector : disk.sectorSize ≤ disk.type.largestSector)
    (addressable : disk.type = .dos → dataEnd disk ≤ 2 ^ 32) :
    disk.usable.start ≤ overlayFirst setup disk ∧
      ((disk.sectors / disk.gap * disk.gap : ℕ) : ℤ) - disk.gap - 1 ≤ disk.usable.stop := by
  have under := Nat.div_mul_le_self disk.sectors disk.gap
  rw [Disk.usable]
  cases kind : disk.type with
  | gpt =>
      rw [kind] at sector
      have table := disk.tableSectors_lt_gap sector
      have first := @lt_overlayFirst setup disk (by omega)
      rw [kind, DiskType.lead] at first
      refine ⟨?_, ?_⟩
      · simp only
        omega
      · simp only
        omega
  | dos =>
      rw [kind] at sector
      have positive := disk.gap_pos sector
      have first := @lt_overlayFirst setup disk positive
      have below := addressable kind
      rw [kind, DiskType.lead] at first
      rw [dataEnd, Nat.sub_one_mul] at below
      refine ⟨?_, le_min ?_ ?_⟩
      · simp only
        omega
      · omega
      · omega

theorem sound_of_room (counted : disk.partitions.length = setup.expected disk.type) (large : 2147483648 < disk.bytes) (room : Room setup disk) :
    ∃ plan, layout setup disk = some plan ∧ disk.Sound plan := by
  have ge := disk.sectorSize_ge
  have some := room.some
  have sector : disk.sectorSize ≤ 2 ^ 20 := room.sector.trans (by cases disk.type with | gpt => decide | dos => decide)
  have positive := disk.gap_pos sector
  have count := @overlayCount_eq setup disk (by omega)
  have sectors := (overlaySectors_pos_iff (by omega)).mpr some
  obtain ⟨dataStart, values, start⟩ := layout_eq counted large sector
  have data := start _ count
  rw [← dataFirst] at data
  have behind := le_ceilDiv_mul positive (overlayFirst setup disk + overlayCount setup disk)
  have ordered := (ordered_iff positive (disk.used setup.files ⌈/⌉ disk.gap + disk.type.lead + overlayCount setup disk ⌈/⌉ disk.gap)
    (disk.sectors / disk.gap)).mpr (by have := room.fits; omega)
  rw [← dataFirst_eq positive, ← data] at ordered
  have aligned : (disk.gap : ℤ) ∣ dataStart := data ▸ Int.natCast_dvd_natCast.mpr (Nat.dvd_mul_left ..)
  have next : overlayFirst setup disk + overlayCount setup disk + disk.gap ≤ dataFirst setup disk := by
    rw [dataFirst, Nat.add_mul]
    omega
  have apart : (overlayFirst setup disk : ℤ) + (overlayBytes setup.overlaySize).tdiv disk.sectorSize - 1 < dataStart := by omega
  have last : dataEnd disk = disk.sectors / disk.gap * disk.gap - disk.gap := Nat.sub_one_mul ..
  obtain ⟨above, below⟩ := @within_usable setup disk room.sector room.addressable
  refine ⟨_, values, ?_, ?_, .inl apart, ?_, ?_⟩
  · exact forall_parts.mpr ⟨Int.natCast_dvd_natCast.mpr (Nat.dvd_mul_left ..), aligned⟩
  · exact forall_parts.mpr ⟨by simp only; omega, ordered⟩
  · refine forall_parts.mpr ⟨fun old member => ?_, fun old member => ?_⟩
    · have clear := room.clear old member
      simp only [Partition.Apart]
      omega
    · have clear := room.clear old member
      simp only [Partition.Apart]
      omega
  · exact forall_parts.mpr ⟨⟨above, by simp only; omega⟩, ⟨by simp only; omega, below⟩⟩

/-- On a disk with the expected partitions, the layout is sound exactly when the sectors are not too large, there is room for the
overlay, and the script sees where the partitions end. -/
theorem layout_sound_iff (counted : disk.partitions.length = setup.expected disk.type) (large : 2147483648 < disk.bytes) :
    (∃ plan, layout setup disk = some plan ∧ disk.Sound plan) ↔ Room setup disk :=
  ⟨fun ⟨_, computed, sound⟩ => room_of_sound counted large computed sound, sound_of_room counted large⟩

/-- Without a star in the listing, every partition ends before the overlay. -/
theorem stop_lt_overlayFirst (positive : 0 < disk.gap) (plain : disk.type = .gpt ∨ ∀ line ∈ disk.partitions, line.active = false) :
    ∀ old ∈ disk.partitions, old.stop < overlayFirst setup disk := by
  have read {line : Line} (member : line ∈ disk.partitions) :
      line.third disk.type = line.stop ∧ line.thirdSet disk.type setup.files = line.stop := by
    rcases plain with gpt | inactive
    · rw [gpt]
      exact ⟨rfl, rfl⟩
    · have unmarked := inactive line member
      cases disk.type with
      | gpt => exact ⟨rfl, rfl⟩
      | dos => simp [Line.third, Line.thirdSet, unmarked]
  intro old member
  obtain ⟨-, above, found⟩ := Disk.foldl_third disk.type disk.partitions (none, 0)
  have below := above old member
  rw [(read member).1, ← Disk.lastDev] at below
  have stop : old.stop < disk.used setup.files := by
    rw [Disk.used]
    rw [← Disk.lastDev] at found
    rcases found with zero | ⟨last, listed, same⟩
    · rw [zero] at below ⊢
      simp only at below ⊢
      omega
    · rw [same] at below ⊢
      simp only [(read listed).1, (read listed).2] at below ⊢
      omega
  have first := @lt_overlayFirst setup disk positive
  omega

end Sound

/-- A PC with an overlay of this size; the script runs in the root directory. -/
def pc (overlaySize : ℤ) : Setup := ⟨true, 2, overlaySize, true⟩

/-- A disk of 3 GiB with the partitions of an image: for the kernel, for the root file system, and number 128 for
the boot loader. -/
def smallDisk : Disk :=
  ⟨.gpt, 512, 6291456, [⟨⟨512, 33279⟩, false⟩, ⟨⟨33792, 2131455⟩, false⟩, ⟨⟨34, 511⟩, false⟩], by decide, by decide, by decide⟩

/-- The same with a DOS table: the first partition is active. -/
def smallDosDisk : Disk := ⟨.dos, 512, 6291456, [⟨⟨512, 33279⟩, true⟩, ⟨⟨33792, 2131455⟩, false⟩], by decide, by decide, by decide⟩

/-- The default overlay of 512 MiB fits with both tables. -/
theorem layout_sound_default :
    (∃ plan, layout (pc 512) smallDisk = some plan ∧ smallDisk.Sound plan) ∧
      ∃ plan, layout (pc 512) smallDosDisk = some plan ∧ smallDosDisk.Sound plan :=
  ⟨(layout_sound_iff (by decide) (by decide)).mpr
      ⟨by decide, by decide, by decide, by decide, fun old member => .inl (stop_lt_overlayFirst (by decide) (.inl rfl) old member)⟩,
    (layout_sound_iff (by decide) (by decide)).mpr ⟨by decide, by decide, by decide, by decide, by decide⟩⟩

-- Were the last partition active, the overlay would start in front of it.
example : layout (pc 512) ⟨.dos, 512, 6291456, [⟨⟨512, 33279⟩, false⟩, ⟨⟨33792, 2131455⟩, true⟩], by decide, by decide, by decide⟩ =
    some ⟨⟨4096, 1052671⟩, ⟨1054720, 6289407⟩⟩ := by decide +kernel

/-- An overlay of 2 GiB leaves the data a partition that ends before it starts. -/
theorem layout_overfull :
    smallDisk.partitions.length = (pc 2048).expected smallDisk.type ∧ 2147483648 < smallDisk.bytes ∧
      ¬∃ plan, layout (pc 2048) smallDisk = some plan ∧ smallDisk.Sound plan := by
  refine ⟨by decide, by decide, ?_⟩
  rintro ⟨plan, computed, sound⟩
  have values : layout (pc 2048) smallDisk = some ⟨⟨2136064, 6330367⟩, ⟨6332416, 6289407⟩⟩ := by decide +kernel
  rw [computed, Option.some.injEq] at values
  have ordered := sound.ordered _ (.tail _ (.head _))
  rw [values] at ordered
  exact absurd ordered (by decide)

end XWrt.FirstBoot
