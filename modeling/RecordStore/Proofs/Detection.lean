import RecordStore.Proofs.Register
import RecordStore.Proofs.Rollback
import RecordStore.Proofs.Splice
import RecordStore.Proofs.Slot
import RecordStore.Proofs.Validity

namespace RecordStore

theorem crc32_bit_by_bit (view : View) (memory : Memory) (offset length : UInt64) :
    view.crc32 memory offset length =
      if offset.toNat + length.toNat ≤ view.size.toNat then
        .ok (Checksum.bitByBit 0xEDB88320 (view.peek memory offset length))
      else .error .outOfRange := by
  by_cases inside : offset.toNat + length.toNat ≤ view.size.toNat
  · have loaded : view.load memory offset length = .ok (view.peek memory offset length) :=
      View.load_ok.mpr ⟨(View.in_bounds_iff _ _ _).mpr inside, rfl⟩
    rw [if_pos inside, View.crc32, loaded, ok_then, Checksum.crc32_bitwise,
      Checksum.bitwise_bit_by_bit]
    rfl
  · have outside : view.inBounds offset length = false :=
      Bool.eq_false_iff.mpr (mt (View.in_bounds_iff _ _ _).mp inside)
    rw [if_neg inside, View.crc32, View.load, View.checkBounds, outside]
    rfl

example : Checksum.crc32 [49, 50, 51, 52, 53, 54, 55, 56, 57] = 0xCBF43926 := by decide +kernel

namespace Checksum

-- Two byte strings of one length that differ, but only inside some four consecutive bytes.
structure Burst (one other : Bytes) (pos : Nat) : Prop where
  even : other.length = one.length
  differ : one ≠ other
  window : ∀ i, one[i]? ≠ other[i]? → pos ≤ i ∧ i < pos + 4

variable {one other : Bytes} {pos : Nat}

theorem crc32_burst (burst : Burst one other pos) : crc32 one ≠ crc32 other := by
  rw [crc32_bitwise, crc32_bitwise]
  exact bitwise_burst (by decide) burst.even burst.differ burst.window

theorem crc32c_burst (burst : Burst one other pos) : crc32c one ≠ crc32c other :=
  bitwise_burst (by decide) burst.even burst.differ burst.window

end Checksum

theorem View.crc32_ok {view : View} {memory : Memory} {offset length : UInt64}
    (inside : offset.toNat + length.toNat ≤ view.size.toNat) :
    view.crc32 memory offset length = .ok (Checksum.crc32 (view.peek memory offset length)) ∧
      view.crc32c memory offset length =
        .ok (Checksum.crc32c (view.peek memory offset length)) := by
  have loaded : view.load memory offset length = .ok (view.peek memory offset length) :=
    View.load_ok.mpr ⟨(View.in_bounds_iff _ _ _).mpr inside, rfl⟩
  rw [View.crc32, View.crc32c, loaded]
  exact ⟨rfl, rfl⟩

namespace FieldType

def Short (type : FieldType) : Prop :=
  type = int32 ∨ type = int16 ∨ type = bool ∨ type = char16

theorem short_length {schema : Schema} {layout : Layout} (built : Layout.build schema = .ok layout)
    {field : Nat} {slot : FieldSlot} (known : layout.fields[field]? = some slot)
    (short : slot.type.Short) : slot.length.toNat ≤ 4 := by
  obtain ⟨lays, -, -⟩ := Layout.build_laid built
  obtain ⟨definition, -, rfl⟩ := Layout.lays_slot lays known
  change definition.type.Short at short
  change (UInt64.ofNat definition.width).toNat ≤ 4
  rw [FieldDef.width]
  rcases short with type | type | type | type <;> simp [type]

end FieldType

theorem short_change_detected :
    (∀ (one other : View) (memory later : Memory) (offset place length : UInt64) (pos : Nat),
      offset.toNat + length.toNat ≤ one.size.toNat →
      place.toNat + length.toNat ≤ other.size.toNat →
      Checksum.Burst (one.peek memory offset length) (other.peek later place length) pos →
      (∃ a b, one.crc32 memory offset length = .ok a ∧ other.crc32 later place length = .ok b ∧
        a ≠ b) ∧
      ∃ a b, one.crc32c memory offset length = .ok a ∧ other.crc32c later place length = .ok b ∧
        a ≠ b) ∧
    ∀ (schema : Schema) (layout : Layout) (memory : Memory) (capacity : UInt64)
      (options : TableOptions) (start : Table),
      Layout.build schema = .ok layout →
      Table.create memory (some layout) capacity options = .ok start →
      ∀ (earlier later : List TableOperation) (field : Nat) (slot : FieldSlot) (offset : UInt64),
        layout.fields[field]? = some slot → slot.type.Short →
        contentAt (start.after earlier).bytes offset.toNat slot ≠
          contentAt (start.after later).bytes offset.toNat slot →
        (∀ i, i < offset.toNat + slot.offset.toNat ∨
          offset.toNat + slot.offset.toNat + slot.length.toNat ≤ i →
            (start.after earlier).bytes[i]? = (start.after later).bytes[i]?) →
        (start.after earlier).crc32 ≠ (start.after later).crc32 := by
  constructor
  · intro one other memory later offset place length pos inside within burst
    obtain ⟨check, checkc⟩ := @View.crc32_ok _ memory _ _ inside
    obtain ⟨second, secondc⟩ := @View.crc32_ok _ later _ _ within
    exact ⟨⟨_, _, check, second, Checksum.crc32_burst burst⟩,
      ⟨_, _, checkc, secondc, Checksum.crc32c_burst burst⟩⟩
  · intro schema layout memory capacity options start built created earlier later field slot offset
      known short differ same
    have sound := Table.create_sound created
    have size (operations : List TableOperation) :
        (start.after operations).bytes.length = start.buffer.size.toNat := by
      rw [Table.bytes, View.bytes_length _ _ (Table.after_sound start operations sound).fits,
        (Table.after_fixed start operations sound).buffer]
    refine @Checksum.crc32_burst _ _ (offset.toNat + slot.offset.toNat) ?_
    refine ⟨?_, fun equal => differ ?_, fun i unlike => ?_⟩
    · rw [size, size]
    · rw [equal]
    · have few := FieldType.short_length built known short
      by_contra outside
      exact unlike (same i (by omega))

theorem pair_change_detected :
    (∃ one other : View, ∃ memory a b, one.peek memory 1 6 ≠ other.peek memory 1 6 ∧
      one.crc32 memory 1 6 = .ok a ∧ other.crc32 memory 1 6 = .ok b ∧ a ≠ b) ∧
    ∃ start, Table.create Memory.empty (some Table.pairLayout) 2 {} = .ok start ∧
      (start.after [.append 1]).crc32 ≠
        (start.after [.append 1, .onFinder (.write 1 (.int32 5))]).crc32 := by
  obtain ⟨ranges, tables⟩ := short_change_detected
  constructor
  · let one : View := ⟨0, 0, 8, Capabilities.all⟩
    let other : View := ⟨1, 0, 8, Capabilities.all⟩
    let memory : Memory :=
      { Memory.empty with regions := #[#[0, 1, 2, 3, 4, 5, 6, 7], #[0, 1, 9, 3, 4, 8, 6, 7]] }
    have differ : one.peek memory 1 6 ≠ other.peek memory 1 6 := by decide
    have window (i : Nat) : (one.peek memory 1 6)[i]? ≠ (other.peek memory 1 6)[i]? →
        1 ≤ i ∧ i < 1 + 4 := by
      intro unlike
      have within : ∀ i < 6, (one.peek memory 1 6)[i]? ≠ (other.peek memory 1 6)[i]? →
          1 ≤ i ∧ i < 1 + 4 := by decide
      refine within i (not_le.mp fun past => unlike ?_) unlike
      rw [List.getElem?_eq_none past, List.getElem?_eq_none past]
    obtain ⟨⟨a, b, check, second, apart⟩, -⟩ := ranges one other memory memory 1 1 6 1
      (by decide) (by decide) ⟨by decide, differ, window⟩
    exact ⟨one, other, memory, a, b, differ, check, second, apart⟩
  · let score : FieldSlot :=
      { name := "score", type := .int32, offset := 12, length := 4, attrs := { indexed := true } }
    let run : List TableOperation := [.append 1, .onFinder (.write 1 (.int32 5))]
    obtain ⟨start, created, differ, size, also, same⟩ : ∃ start,
        Table.create Memory.empty (some Table.pairLayout) 2 {} = .ok start ∧
        contentAt (start.after [.append 1]).bytes 0 score ≠
          contentAt (start.after run).bytes 0 score ∧
        (start.after [.append 1]).bytes.length = 34 ∧ (start.after run).bytes.length = 34 ∧
        ∀ i < 34, i < 12 ∨ 16 ≤ i →
          (start.after [.append 1]).bytes[i]? = (start.after run).bytes[i]? := by
      refine ⟨_, rfl, ?_, ?_, ?_, ?_⟩ <;> decide +kernel
    refine ⟨start, created, tables Table.pairSchema Table.pairLayout _ 2 {} start Table.pair_built
      created [.append 1] run 1 score 0 rfl (.inl rfl) differ fun i elsewhere => ?_⟩
    by_cases inside : i < 34
    · exact same i inside elsewhere
    · rw [List.getElem?_eq_none (by omega), List.getElem?_eq_none (by omega)]

end RecordStore
