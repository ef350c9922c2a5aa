import RecordStore.Proofs.Effect
import RecordStore.Proofs.Unique

namespace RecordStore

namespace Table

variable {before after : Table} {source : View} {sourceOffset : UInt64} {memory : Memory}

theorem peek_content {layout : Layout} (packed : layout.Packed) {id : Nat} {slot : FieldSlot}
    (known : layout.fields[id]? = some slot) {place : Place} (holds : place.Holds layout)
    (memory : Memory) : place.buffer.peek memory (place.ofSlot slot) slot.length =
      place.contentOf memory slot :=
  (View.load_ok.mp (load_content packed known holds memory)).2

theorem brings_content (formed : before.Formed) (fits : source.Fits before.memory)
    (room : before.isFull = false) (brings : before.Brings memory source sourceOffset) {id : Nat}
    {slot : FieldSlot} (known : before.layout.fields[id]? = some slot) :
    Place.contentOf ⟨before.buffer, before.contents.nextFree⟩ memory slot =
      Place.contentOf ⟨source, sourceOffset⟩ before.memory slot := by
  have reach := next_room formed room
  rw [← bytes_whole formed] at reach
  have sourceRoom := (View.in_bounds_iff _ _ _).mp brings.room
  have holds : Place.Holds ⟨source, sourceOffset⟩ before.layout := sourceRoom
  rw [← peek_content formed.packed known holds, Place.contentOf, brings.bytes]
  exact copied_content formed fits sourceRoom reach known

theorem brings_reads (formed : before.Formed) (fits : source.Fits before.memory)
    (room : before.isFull = false) (brings : before.Brings memory source sourceOffset)
    {copy reader : Cursor} (shape : copy.layout = before.layout)
    (likewise : reader.layout = before.layout)
    (placed : copy.place = some ⟨before.buffer, before.contents.nextFree⟩)
    (standing : reader.place = some ⟨source, sourceOffset⟩) (id : Nat) :
    copy.read memory id = reader.read before.memory id := by
  cases known : before.layout.fields[id]? with
  | none =>
    have missing : before.layout.field id = .error .noSuchField := by rw [Layout.field, known]
    rw [Cursor.read, Cursor.read, Cursor.require_place_ok.mpr placed,
      Cursor.require_place_ok.mpr standing, shape, likewise, missing]
    rfl
  | some slot =>
    have holds : Place.Holds ⟨before.buffer, before.contents.nextFree⟩ before.layout :=
      next_room formed room
    have sourceHolds : Place.Holds ⟨source, sourceOffset⟩ before.layout :=
      (View.in_bounds_iff _ _ _).mp brings.room
    rw [Cursor.read_placed placed (by rw [shape, known]),
      Cursor.read_placed standing (by rw [likewise, known]), Place.readSlot, Place.readSlot,
      load_content formed.packed known holds, load_content formed.packed known sourceHolds,
      brings_content formed fits room brings known]

theorem brings_load (formed : before.Formed) (fits : source.Fits before.memory)
    (room : before.isFull = false) (brings : before.Brings memory source sourceOffset) :
    before.buffer.load memory before.contents.nextFree before.layout.stride =
      .ok (source.peek before.memory sourceOffset before.layout.stride) := by
  have reach := next_room formed room
  have inside := reach
  rw [← bytes_whole formed] at inside
  have length := View.peek_length source before.memory sourceOffset before.layout.stride fits
    ((View.in_bounds_iff _ _ _).mp brings.room)
  refine View.load_ok.mpr ⟨(View.in_bounds_iff _ _ _).mpr reach, ?_⟩
  rw [View.peek_eq_part _ _ _ _ reach, brings.bytes, ← length]
  exact part_splice _ _ _ (by rw [length]; exact inside)

structure Copied (before after : Table) (source : View) (sourceOffset : UInt64) : Prop where
  finder : after.finder = before.finder.onto before.buffer before.contents.nextFree
  bytes : ∃ bytes, source.load before.memory sourceOffset before.layout.stride = .ok bytes ∧
    before.buffer.load after.memory before.contents.nextFree before.layout.stride = .ok bytes
  key : ∃ key, before.readKey source sourceOffset = .ok key ∧
    after.readKey before.buffer before.contents.nextFree = .ok key ∧
    after.contents.offsetByKey[key]? = some before.contents.nextFree ∧
    ∀ other, other ≠ key →
      after.contents.offsetByKey[other]? = before.contents.offsetByKey[other]?
  reads : ∀ reader : Cursor, reader.layout = before.layout → reader.reports = false →
    ∃ bound, reader.bind source sourceOffset = .ok bound ∧
      ∀ field, after.finder.read after.memory field = bound.read before.memory field
  entered : ∀ field slot, before.layout.fields[field]? = some slot → slot.attrs.indexed = true →
    ∃ value offsets index, after.finder.read after.memory field = .ok value ∧
      after.withValue field value = .ok offsets ∧ before.contents.nextFree ∈ offsets ∧
      Contents.index? after.contents.indexes field = some index ∧
      index.value? before.contents.nextFree = some value
  elsewhere : ∀ region pos, region ≠ before.buffer.region ∨
    pos < before.buffer.start + before.contents.nextFree.toNat ∨
    before.buffer.start + before.contents.nextFree.toNat + before.layout.stride.toNat ≤ pos →
      (after.memory.region region)[pos]? = (before.memory.region region)[pos]?
  others : ∀ field index, Contents.index? before.contents.indexes field = some index →
    ∃ later, Contents.index? after.contents.indexes field = some later ∧
      ∀ offset, offset ≠ before.contents.nextFree → later.value? offset = index.value? offset ∧
        ∀ value, offset ∈ later.offsetsOf value ↔ offset ∈ index.offsetsOf value

section Copied

variable {key : Int64} {held : Nat → Value}

theorem brings_key (formed : before.Formed) (fits : source.Fits before.memory)
    (room : before.isFull = false) (brings : before.Brings memory source sourceOffset)
    (read : before.readKey source sourceOffset = .ok key) (layout : after.layout = before.layout)
    (position : after.keyPosition = before.keyPosition) (same : after.memory = memory) :
    after.readKey before.buffer before.contents.nextFree = .ok key := by
  obtain ⟨slot, known, -⟩ := formed.key
  have holds : Place.Holds ⟨before.buffer, before.contents.nextFree⟩ before.layout :=
    next_room formed room
  have sourceHolds : Place.Holds ⟨source, sourceOffset⟩ before.layout :=
    (View.in_bounds_iff _ _ _).mp brings.room
  obtain ⟨place, inside⟩ := slot_position formed.packed known holds
  have column : after.layout.fields[after.keyPosition]? = some slot := by
    rw [layout, position, known]
  have signed := ((read_key_ok known).mp read).2
  refine (read_key_ok column).mpr ⟨?_, ?_⟩
  · rw [View.in_bounds_iff]
    rw [Place.ofSlot] at place
    rw [place]
    exact inside
  · have copied := peek_content formed.packed known holds memory
    have taken := peek_content formed.packed known sourceHolds before.memory
    rw [brings_content formed fits room brings known, ← taken] at copied
    rw [same]
    exact (congrArg slot.type.signed? copied).trans signed

theorem brings_entered (formed : before.Formed) (later : after.Formed) (room : before.isFull = false)
    (finder : after.finder = before.finder.onto before.buffer before.contents.nextFree)
    (indexes : after.contents.indexes = before.contents.indexes.map fun index =>
      index.assign before.contents.nextFree (held index.field))
    (reads : before.Reads after.memory before.contents.nextFree held) {field : Nat}
    {slot : FieldSlot} (known : before.layout.fields[field]? = some slot)
    (indexed : slot.attrs.indexed = true) :
    ∃ value offsets index, after.finder.read after.memory field = .ok value ∧
      after.withValue field value = .ok offsets ∧ before.contents.nextFree ∈ offsets ∧
      Contents.index? after.contents.indexes field = some index ∧
      index.value? before.contents.nextFree = some value := by
  obtain ⟨index, member, rfl⟩ := mem_of_indexed formed.counted known indexed
  let entered := index.assign before.contents.nextFree (held index.field)
  have present : entered ∈ after.contents.indexes := by
    rw [indexes]
    exact List.mem_map.mpr ⟨index, member, rfl⟩
  have value : entered.value? before.contents.nextFree = some (held index.field) := by
    rw [ValueIndex.value?, ValueIndex.assign_values, if_pos rfl]
  refine ⟨held index.field, entered.offsetsOf (held index.field), entered, ?_, ?_, ?_,
    Contents.index_of_mem (fields_nodup later.counted.heads) present, value⟩
  · rw [finder]
    exact (onto_read formed (next_room formed room) known).mpr (reads index.field slot known indexed)
  · exact (with_value_ok later).mpr ⟨entered, present, rfl, rfl⟩
  · rw [ValueIndex.mem_offsets_of]
    exact ValueIndex.assign_holds index before.contents.nextFree (held index.field)

theorem brings_others (later : after.Formed)
    (paired : ∀ index ∈ before.contents.indexes, index.Paired)
    (indexes : after.contents.indexes = before.contents.indexes.map fun index =>
      index.assign before.contents.nextFree (held index.field)) {field : Nat} {index : ValueIndex}
    (found : Contents.index? before.contents.indexes field = some index) :
    ∃ later, Contents.index? after.contents.indexes field = some later ∧
      ∀ offset, offset ≠ before.contents.nextFree → later.value? offset = index.value? offset ∧
        ∀ value, offset ∈ later.offsetsOf value ↔ offset ∈ index.offsetsOf value := by
  obtain ⟨member, rfl⟩ := Contents.mem_of_index found
  let entered := index.assign before.contents.nextFree (held index.field)
  have present : entered ∈ after.contents.indexes := by
    rw [indexes]
    exact List.mem_map.mpr ⟨index, member, rfl⟩
  refine ⟨entered, Contents.index_of_mem (fields_nodup later.counted.heads) present, ?_⟩
  intro offset beside
  have same : entered.values[offset]? = index.values[offset]? := by
    rw [ValueIndex.assign_values, if_neg beside]
  refine ⟨same, fun value => ?_⟩
  have matched := ValueIndex.assign_paired (paired index member) before.contents.nextFree
    (held index.field)
  rw [ValueIndex.mem_offsets_of, ValueIndex.mem_offsets_of, matched.agree,
    (paired index member).agree, same]

theorem copied_step (formed : before.Formed)
    (paired : ∀ index ∈ before.contents.indexes, index.Paired) (fits : source.Fits before.memory)
    (answered : before.answer (.appendCopy source sourceOffset) = .ok (.truth true)) :
    before.Copied (before.step (.appendCopy source sourceOffset)) source sourceOffset := by
  have step := step_cases formed (.appendCopy source sourceOffset)
  have later := step_formed before (.appendCopy source sourceOffset) formed
  rw [Steps, answered] at step
  generalize before.step (.appendCopy source sourceOffset) = after at step later ⊢
  cases step with
  | asked asks => cases asks
  | found target => cases target
  | @copied _ _ key memory held notices room read fresh brings reads =>
    have sourceRoom := (View.in_bounds_iff _ _ _).mp brings.room
    refine ⟨rfl, ⟨_, View.load_ok.mpr ⟨brings.room, rfl⟩, brings_load formed fits room brings⟩,
      ⟨key, read, brings_key formed fits room brings read rfl rfl rfl, ?_, ?_⟩, ?_, ?_, ?_, ?_⟩
    · exact (enter_key fresh key).trans (if_pos rfl)
    · intro other differ
      exact (enter_key fresh other).trans (if_neg differ)
    · intro reader shape silent
      rw [← shape] at sourceRoom
      let bound : Cursor := { reader with
        place := some ⟨source, sourceOffset⟩, keyLocked := false, snapshot := none }
      have likewise : bound.layout = before.layout := shape
      refine ⟨bound, Cursor.move_ok.mpr ⟨sourceRoom, by rw [silent]; rfl, rfl⟩, ?_⟩
      exact brings_reads formed fits room brings formed.finder.shape likewise rfl rfl
    · intro field slot known indexed
      exact brings_entered formed later room rfl rfl reads known indexed
    · intro region pos apart
      rw [brings.poked]
      have short := source.peek_short before.memory sourceOffset before.layout.stride
      apply View.poke_elsewhere
      omega
    · intro field index found
      exact brings_others later paired rfl found

end Copied

theorem copy_copies {schema : Schema} {layout : Layout} {memory : Memory} {capacity : UInt64}
    {options : TableOptions} {start : Table} (built : Layout.build schema = .ok layout)
    (created : create memory (some layout) capacity options = .ok start)
    (wide : layout.extent + options.slotPadding.toNat < UInt64.size)
    (operations : List TableOperation) {source : View} {sourceOffset : UInt64}
    (fits : source.Fits (start.after operations).memory)
    (answered : (start.after operations).answer (.appendCopy source sourceOffset) =
      .ok (.truth true)) :
    (start.after operations).Copied
      (start.after (operations ++ [.appendCopy source sourceOffset])) source sourceOffset := by
  obtain ⟨packed, room⟩ := Layout.build_wide built wide
  have formed := after_formed start operations (create_formed created packed room)
  have recalls := after_recalls created (create_ready created packed) operations
  rw [after_snoc]
  exact copied_step formed (fun index member => (recalls index member).paired) fits answered

-- The copy is taken from the table itself and overwrites the last bytes of its source.
theorem pair_copies_itself :
    ∃ start, create Memory.empty (some pairLayout) 2 {} = .ok start ∧
      let run : List TableOperation := [.append 1, .onFinder (.write 1 (.int32 5))]
      let source : View := (start.after run).buffer.readOnly
      (start.after run).contents.nextFree = 17 ∧ source.Fits (start.after run).memory ∧
      (start.after run).answer (.appendCopy source 4) = .ok (.truth true) ∧
      (start.after run).Copied (start.after (run ++ [.appendCopy source 4])) source 4 := by
  obtain ⟨start, created, next, fits, answered⟩ : ∃ start,
      create Memory.empty (some pairLayout) 2 {} = .ok start ∧
      let run : List TableOperation := [.append 1, .onFinder (.write 1 (.int32 5))]
      let source : View := (start.after run).buffer.readOnly
      (start.after run).contents.nextFree = 17 ∧ source.Fits (start.after run).memory ∧
      (start.after run).answer (.appendCopy source 4) = .ok (.truth true) := by
    refine ⟨_, rfl, ?_, ?_, ?_⟩
    · decide +kernel
    · rw [View.Fits]
      decide +kernel
    · decide +kernel
  exact ⟨start, created, next, fits, answered,
    copy_copies pair_built created (by decide) _ fits answered⟩

end Table

end RecordStore
