import RecordStore.Proofs.Allocation

namespace RecordStore

namespace Table

structure Made (memory : Memory) (layout : Layout) (capacity : UInt64) (options : TableOptions)
    (table : Table) : Prop where
  shape : table.layout = layout
  limit : table.capacity = capacity
  spacing : table.slotStride = layout.stride + options.slotPadding
  key : ∃ slot, layout.keyPosition? = some table.keyPosition ∧ layout.keySlot? = some slot ∧
    slot.type.isInteger = true
  room : 0 < table.capacity.toNat
  spaced : 0 < table.slotStride.toNat
  whole : table.capacity.toNat * table.slotStride.toNat < UInt64.size
  grown : table.memory = memory.grow table.buffer.size.toNat
  buffer : table.buffer =
    ⟨memory.fresh, 0, table.capacity * table.slotStride, Capabilities.all⟩
  contents : table.contents = Contents.blank layout
  finder : table.finder = { layout, reports := true }
  walker : table.walker = { layout, reports := true }
  ahead : table.ahead = 0
  snapshot : table.snapshot = none
  notices : table.notices = [.created layout.name capacity layout.stride options.slotPadding
    table.contents.indexes.length]
  aligned : isPowerOfTwo options.alignment = true
  granted : memory.Grants (table.capacity.toNat * table.slotStride.toNat) options.alignment

section Made

variable {memory : Memory} {layout : Layout} {capacity : UInt64} {options : TableOptions}
  {table : Table}

theorem made_cursor (made : Made memory layout capacity options table) (role : Role) :
    table.cursor role = { layout, reports := true } := by
  cases role with
  | finder => exact made.finder
  | walker => exact made.walker

theorem made_unplaced (made : Made memory layout capacity options table) (role : Role) :
    (table.cursor role).place = none := by
  rw [made_cursor made]

theorem made_bytes (made : Made memory layout capacity options table) :
    table.memory.region table.buffer.region = Region.blank table.buffer.size.toNat := by
  have region : table.buffer.region = memory.fresh := by rw [made.buffer]
  rw [made.grown, region, Memory.region_grow]

theorem made_size (made : Made memory layout capacity options table) :
    table.buffer.size.toNat = table.capacity.toNat * table.slotStride.toNat := by
  rw [made.buffer, UInt64.toNat_mul]
  exact Nat.mod_eq_of_lt made.whole

theorem made_fits (made : Made memory layout capacity options table) :
    table.buffer.Fits table.memory := by
  have start : table.buffer.start = 0 := by rw [made.buffer]
  rw [View.Fits, start, made_bytes made, Region.blank, Array.size_replicate]
  omega

end Made

theorem capacity_fits_iff {capacity slotStride : UInt64} (spaced : 0 < slotStride.toNat) :
    ¬ capacity > UInt64.ofNat (UInt64.size - 1) / slotStride ↔
      capacity.toNat * slotStride.toNat < UInt64.size := by
  have top : (UInt64.ofNat (UInt64.size - 1)).toNat = UInt64.size - 1 := rfl
  rw [GT.gt, UInt64.lt_iff_toNat_lt, UInt64.toNat_div, top, Nat.not_lt, Nat.le_div_iff_mul_le spaced]
  exact Nat.le_sub_one_iff_lt (by decide)

theorem product_toNat {capacity slotStride : UInt64}
    (whole : capacity.toNat * slotStride.toNat < UInt64.size) :
    (capacity * slotStride).toNat = capacity.toNat * slotStride.toNat := by
  rw [UInt64.toNat_mul]
  exact Nat.mod_eq_of_lt whole

theorem create_ok {memory : Memory} {layout : Option Layout} {capacity : UInt64}
    {options : TableOptions} {table : Table}
    (created : create memory layout capacity options = .ok table) :
    ∃ known, layout = some known ∧ Made memory known capacity options table := by
  cases layout with
  | none => cases created
  | some known =>
    refine ⟨known, rfl, ?_⟩
    rw [create] at created
    dsimp only at created
    split at created
    · rename_i keyPosition slot positioned slotted
      split at created
      · cases created
      rename_i integer
      split at created
      · cases created
      rename_i nonzero
      split at created
      · cases created
      split at created
      · cases created
      rename_i apart
      split at created
      · cases created
      rename_i fits
      have room := word_pos nonzero
      have spaced := word_pos apart
      have whole := (capacity_fits_iff spaced).mp fits
      have size := product_toNat whole
      obtain ⟨⟨view, after⟩, allocated, made⟩ := except_bind_ok.mp created
      obtain ⟨⟨aligned, granted⟩, rfl, rfl⟩ :=
        allocate_ok (by rw [size]; exact Nat.mul_pos room spaced) allocated
      rw [size] at granted
      cases made
      exact ⟨rfl, rfl, rfl, ⟨slot, positioned, slotted, by simpa using integer⟩, room, spaced, whole,
        rfl, rfl, rfl, rfl, rfl, rfl, rfl, rfl, aligned, granted⟩
    · cases created

section Runs

variable {layout : Layout} {key : FieldSlot} {memory : Memory} {capacity : UInt64}
  {options : TableOptions}

theorem key_position (slotted : layout.keySlot? = some key) :
    ∃ position, layout.keyPosition? = some position := by
  rw [Layout.keySlot?] at slotted
  rw [Layout.keyPosition?]
  have marked : key.attrs.key = true :=
    List.find?_some (p := fun slot : FieldSlot => slot.attrs.key) slotted
  have found : (layout.fields.findIdx? (·.attrs.key)).isSome = true := by
    rw [List.findIdx?_isSome, List.any_eq_true]
    exact ⟨key, List.mem_of_find?_eq_some slotted, marked⟩
  exact Option.isSome_iff_exists.mp found

-- Why no table is made of a layout that has an integer key. The checks come in this order.
inductive Refused (memory : Memory) (capacity slotStride alignment : UInt64) : Fault → Prop
  | empty (none : capacity = 0) : Refused memory capacity slotStride alignment .noCapacity
  | unaligned (some_room : capacity ≠ 0) (unaligned : isPowerOfTwo alignment = false) :
      Refused memory capacity slotStride alignment .badBufferAlignment
  | unspaced (some_room : capacity ≠ 0) (aligned : isPowerOfTwo alignment = true)
      (none : slotStride = 0) : Refused memory capacity slotStride alignment .divisionByZero
  | tooLarge (some_room : capacity ≠ 0) (aligned : isPowerOfTwo alignment = true)
      (spaced : slotStride ≠ 0) (large : UInt64.size ≤ capacity.toNat * slotStride.toNat) :
      Refused memory capacity slotStride alignment (.capacityOverflow capacity)
  | ungranted (some_room : capacity ≠ 0) (aligned : isPowerOfTwo alignment = true)
      (spaced : slotStride ≠ 0) (whole : capacity.toNat * slotStride.toNat < UInt64.size)
      (long : ¬ memory.Grants (capacity.toNat * slotStride.toNat) alignment) :
      Refused memory capacity slotStride alignment
        (blockFault (capacity.toNat * slotStride.toNat) alignment)

theorem create_fails {fault : Fault} (slotted : layout.keySlot? = some key)
    (integer : key.type.isInteger = true)
    (failed : create memory (some layout) capacity options = .error fault) :
    Refused memory capacity (layout.stride + options.slotPadding) options.alignment fault := by
  obtain ⟨position, positioned⟩ := key_position slotted
  rw [create] at failed
  dsimp only at failed
  rw [positioned, slotted] at failed
  dsimp only at failed
  rw [if_neg (by rw [integer]; decide)] at failed
  split at failed
  · rename_i none
    cases failed
    exact .empty none
  rename_i some_room
  split at failed
  · rename_i unaligned
    cases failed
    exact .unaligned some_room (by simpa using unaligned)
  rename_i aligned
  have aligned : isPowerOfTwo options.alignment = true := by simpa using aligned
  split at failed
  · rename_i none
    cases failed
    exact .unspaced some_room aligned none
  rename_i spaced
  have fits := @capacity_fits_iff capacity _ (word_pos spaced)
  split at failed
  · rename_i many
    cases failed
    exact .tooLarge some_room aligned spaced (Nat.not_lt.mp fun whole => fits.mpr whole many)
  rename_i few
  have whole := fits.mp few
  have size := product_toNat whole
  rw [allocate_eq (by rw [size]; exact Nat.mul_pos (word_pos some_room) (word_pos spaced)) aligned,
    size] at failed
  split at failed
  · cases failed
  · rename_i long
    cases failed
    exact .ungranted some_room aligned spaced whole long

theorem create_runs (slotted : layout.keySlot? = some key) (integer : key.type.isInteger = true)
    (room : capacity ≠ 0) (aligned : isPowerOfTwo options.alignment = true)
    (spaced : layout.stride + options.slotPadding ≠ 0)
    (whole : capacity.toNat * (layout.stride + options.slotPadding).toNat < UInt64.size)
    (granted : memory.Grants (capacity.toNat * (layout.stride + options.slotPadding).toNat)
      options.alignment) :
    ∃ table, create memory (some layout) capacity options = .ok table := by
  cases made : create memory (some layout) capacity options with
  | ok table => exact ⟨table, rfl⟩
  | error fault =>
    cases create_fails slotted integer made with
    | empty none => exact absurd none room
    | unaligned _ unaligned => exact absurd (aligned.symm.trans unaligned) (by decide)
    | unspaced _ _ none => exact absurd none spaced
    | tooLarge _ _ _ large => exact absurd whole (Nat.not_lt.mpr large)
    | ungranted _ _ _ _ long => exact absurd granted long

end Runs

end Table

end RecordStore
