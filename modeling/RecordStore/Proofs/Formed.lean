import RecordStore.Proofs.Rollback
import RecordStore.Proofs.Slot

/-!
Well-formed tables: what every operation relies on and none breaks, wherever the cursors stand. A table
is ready for any operation also when its records are not far enough apart to be well-formed.
-/

namespace RecordStore

def ValueIndex.head (index : ValueIndex) : Nat × Bool := (index.field, index.unique)

@[simp] theorem ValueIndex.assign_head (index : ValueIndex) (offset : UInt64) (value : Value) :
    (index.assign offset value).head = index.head := rfl

namespace Contents

theorem blank_head {layout : Layout} {field : Nat} {unique : Bool} :
    (field, unique) ∈ (blank layout).indexes.map ValueIndex.head ↔
      ∃ slot, layout.fields[field]? = some slot ∧ slot.attrs.indexed = true ∧
        unique = slot.attrs.unique := by
  simp only [blank, List.mem_map, List.mem_filterMap]
  constructor
  · intro shown
    obtain ⟨index, ⟨⟨slot, id⟩, member, made⟩, head⟩ := shown
    rw [List.mk_mem_zipIdx_iff_getElem?] at member
    by_cases indexed : slot.attrs.indexed = true
    · simp only [indexed, if_true, Option.some.injEq] at made
      subst made
      cases head
      exact ⟨slot, member, indexed, rfl⟩
    · simp [indexed] at made
  · intro shown
    obtain ⟨slot, known, indexed, rfl⟩ := shown
    have member : (slot, field) ∈ layout.fields.zipIdx :=
      List.mk_mem_zipIdx_iff_getElem?.mpr known
    refine ⟨{ field, unique := slot.attrs.unique }, ⟨(slot, field), member, ?_⟩, rfl⟩
    simp [indexed]

theorem blank_new {layout : Layout} {index : ValueIndex} (member : index ∈ (blank layout).indexes) :
    ∃ field unique, index = { field, unique } := by
  obtain ⟨⟨slot, id⟩, -, made⟩ := List.mem_filterMap.mp member
  simp only [Option.ite_none_right_eq_some, Option.some.injEq] at made
  exact ⟨id, slot.attrs.unique, made.2.symm⟩

theorem blank_nodup (layout : Layout) :
    ((blank layout).indexes.map (·.field)).Nodup := by
  have numbered : (layout.fields.zipIdx.map (·.2)).Nodup := by
    rw [List.zipIdx_map_snd]
    exact List.nodup_range'
  rw [List.Nodup, List.pairwise_map] at numbered ⊢
  refine List.pairwise_filterMap.mpr (numbered.imp ?_)
  rintro ⟨first, i⟩ ⟨second, j⟩ differ one found other also
  simp only [Option.ite_none_right_eq_some, Option.some.injEq] at found also
  obtain ⟨-, rfl⟩ := found
  obtain ⟨-, rfl⟩ := also
  exact differ

end Contents

namespace Table

structure Counted (table : Table) (contents : Contents) : Prop where
  count : contents.count.toNat ≤ table.capacity.toNat
  next : contents.nextFree.toNat = contents.count.toNat * table.slotStride.toNat
  occupied : ∀ offset : UInt64, offset ∈ contents.occupied ↔
    ∃ i < contents.count.toNat, offset.toNat = i * table.slotStride.toNat
  found : ∀ (key : Int64) (offset : UInt64), contents.offsetByKey[key]? = some offset →
    offset ∈ contents.occupied
  heads : contents.indexes.map ValueIndex.head =
    (Contents.blank table.layout).indexes.map ValueIndex.head

def Columns (table : Table) (contents : Contents) : Prop :=
  contents.indexes.map ValueIndex.head = (Contents.blank table.layout).indexes.map ValueIndex.head

structure Serves (table : Table) (cursor : Cursor) : Prop where
  shape : cursor.layout = table.layout
  reports : cursor.reports = true

structure Ready (table : Table) : Prop where
  sound : table.Sound
  packed : table.layout.Packed
  key : ∃ slot, table.layout.fields[table.keyPosition]? = some slot ∧ slot.attrs.key = true ∧
    slot.type.isInteger = true
  finder : table.Serves table.finder
  walker : table.Serves table.walker
  columns : table.Columns table.contents
  saved : ∀ (bytes : Bytes) (contents : Contents), table.snapshot = some (bytes, contents) →
    table.Columns contents

structure Formed (table : Table) : Prop where
  sound : table.Sound
  packed : table.layout.Packed
  key : ∃ slot, table.layout.fields[table.keyPosition]? = some slot ∧ slot.attrs.key = true ∧
    slot.type.isInteger = true
  spaced : table.layout.stride.toNat ≤ table.slotStride.toNat
  size : table.buffer.size.toNat = table.capacity.toNat * table.slotStride.toNat
  finder : table.Serves table.finder
  walker : table.Serves table.walker
  counted : table.Counted table.contents
  saved : ∀ (bytes : Bytes) (contents : Contents), table.snapshot = some (bytes, contents) →
    table.Counted contents

theorem ready_cursor {table : Table} (ready : table.Ready) (role : Role) :
    table.Serves (table.cursor role) := by
  cases role with
  | finder => exact ready.finder
  | walker => exact ready.walker

theorem formed_cursor {table : Table} (formed : table.Formed) (role : Role) :
    table.Serves (table.cursor role) := by
  cases role with
  | finder => exact formed.finder
  | walker => exact formed.walker

section Columns

variable {table : Table} {contents : Contents}

theorem head_of_mem (columns : table.Columns contents) {index : ValueIndex}
    (member : index ∈ contents.indexes) :
    ∃ slot, table.layout.fields[index.field]? = some slot ∧ slot.attrs.indexed = true ∧
      index.unique = slot.attrs.unique := by
  apply Contents.blank_head.mp
  rw [← columns]
  exact List.mem_map.mpr ⟨index, member, rfl⟩

theorem index_of_column (columns : table.Columns contents) {id : Nat} {slot : FieldSlot}
    (known : table.layout.fields[id]? = some slot) (indexed : slot.attrs.indexed = true) :
    ∃ index ∈ contents.indexes, index.field = id ∧ index.unique = slot.attrs.unique := by
  have head : (id, slot.attrs.unique) ∈ contents.indexes.map ValueIndex.head := by
    rw [columns]
    exact Contents.blank_head.mpr ⟨slot, known, indexed, rfl⟩
  obtain ⟨index, member, same⟩ := List.mem_map.mp head
  exact ⟨index, member, congrArg Prod.fst same, congrArg Prod.snd same⟩

theorem fields_nodup (columns : table.Columns contents) :
    (contents.indexes.map (·.field)).Nodup := by
  have fields (indexes : List ValueIndex) :
      indexes.map (·.field) = (indexes.map ValueIndex.head).map Prod.fst := by
    rw [List.map_map]
    rfl
  rw [fields, columns, ← fields]
  exact Contents.blank_nodup table.layout

end Columns

section Formed

variable {table : Table} {contents : Contents}

theorem formed_ready (formed : table.Formed) : table.Ready :=
  ⟨formed.sound, formed.packed, formed.key, formed.finder, formed.walker, formed.counted.heads,
    fun bytes contents saved => (formed.saved bytes contents saved).heads⟩

theorem mem_of_indexed (counted : table.Counted contents) {id : Nat} {slot : FieldSlot}
    (known : table.layout.fields[id]? = some slot) (indexed : slot.attrs.indexed = true) :
    ∃ index ∈ contents.indexes, index.field = id := by
  obtain ⟨index, member, same, -⟩ := index_of_column counted.heads known indexed
  exact ⟨index, member, same⟩

theorem bytes_whole (formed : table.Formed) :
    table.bytes.length = table.buffer.size.toNat :=
  View.bytes_length _ _ formed.sound.fits

theorem slot_room (formed : table.Formed) {i : Nat} (few : i < table.capacity.toNat) :
    i * table.slotStride.toNat + table.layout.stride.toNat ≤ table.buffer.size.toNat := by
  have spaced := formed.spaced
  have below : (i + 1) * table.slotStride.toNat ≤
      table.capacity.toNat * table.slotStride.toNat := Nat.mul_le_mul_right _ few
  rw [Nat.succ_mul] at below
  rw [formed.size]
  omega

theorem stride_positive (formed : table.Formed) : 0 < table.slotStride.toNat := by
  have header := formed.packed.header
  have spaced := formed.spaced
  omega

theorem count_below (room : table.isFull = false) :
    table.contents.count.toNat < table.capacity.toNat := by
  rw [isFull, decide_eq_false_iff_not, GE.ge, UInt64.le_iff_toNat_le] at room
  omega

theorem next_room (formed : table.Formed) (room : table.isFull = false) :
    table.contents.nextFree.toNat + table.layout.stride.toNat ≤ table.buffer.size.toNat := by
  rw [formed.counted.next]
  exact slot_room formed (count_below room)

theorem occupied_room (formed : table.Formed) {offset : UInt64}
    (occupied : offset ∈ table.contents.occupied) :
    offset.toNat + table.layout.stride.toNat ≤ table.buffer.size.toNat := by
  obtain ⟨i, few, position⟩ := (formed.counted.occupied offset).mp occupied
  have bound := formed.counted.count
  rw [position]
  exact slot_room formed (by omega)

end Formed

end Table

end RecordStore
