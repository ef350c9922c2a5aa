import RecordStore.Proofs.Entry
import RecordStore.Proofs.Ledger
import RecordStore.Proofs.Tally

namespace RecordStore

namespace Table

-- The cursor stands on a record whose key it cannot change, not even by bringing saved bytes back.
structure Guards (table : Table) (cursor : Cursor) (place : Place) : Prop where
  placed : cursor.place = some place
  here : place.buffer = table.buffer
  occupied : place.offset ∈ table.contents.occupied
  locked : cursor.keyLocked = true
  whole : ∀ bytes, cursor.snapshot = some bytes → bytes.length = table.layout.stride.toNat
  saved : ∀ bytes slot, cursor.snapshot = some bytes →
    table.layout.fields[table.keyPosition]? = some slot →
      contentAt bytes 0 slot = contentAt table.bytes place.offset.toNat slot

structure Upheld (table : Table) (ledger : Ledger) : Prop where
  formed : table.Formed
  homed : table.Homed
  tracks : Tracks (fun bytes contents held => table.Tallied bytes contents held.keys) table ledger
  finder : ledger.finderPlaced = true → ∃ place, table.Guards table.finder place
  walker : ledger.walkerPlaced = true → ∃ place, table.Guards table.walker place

theorem upheld_cursor {table : Table} {ledger : Ledger} (upheld : table.Upheld ledger)
    {role : Role} (placed : ledger.placed role = true) :
    ∃ place, table.Guards (table.cursor role) place := by
  cases role with
  | finder => exact upheld.finder placed
  | walker => exact upheld.walker placed

inductive Effect (before : Table) (operation : TableOperation) (after : Table)
    (ledger later : Ledger) : Prop
  | same (bytes : after.bytes = before.bytes) (contents : after.contents = before.contents)
      (now : later.now = ledger.now)
  | entered {key : Int64} {fields : List Nat} {values : Nat → Value}
      (room : before.isFull = false) (fresh : before.hasKey key = false)
      (outside : Outside before.bytes after.bytes before.contents.nextFree.toNat
        before.layout.stride.toNat)
      (keyed : before.KeyAt after.bytes before.contents.nextFree.toNat key)
      (reads : ∀ field ∈ fields, ∀ slot, before.layout.fields[field]? = some slot →
        slot.attrs.indexed = true → Value.decode? slot.type
          (contentAt after.bytes before.contents.nextFree.toNat slot) = some (values field))
      (contents : after.contents = before.contents.enter (before.contents.indexes.map
        (ValueIndex.enterAll fields before.contents.nextFree values)) key before.slotStride)
      (now : later.now = ledger.now.enter key before.contents.nextFree fields)
  | changed {cursor : Cursor} {place : Place} {work : CursorOperation} {reply : CursorAnswer}
      {session : Session (List ValueIndex)}
      (through : before.through? operation = some (cursor, work))
      (serves : before.Serves cursor) (guards : before.Guards cursor place)
      (change : Change indexOwner (before.session cursor) work reply session)
      (bytes : after.bytes = before.buffer.bytes session.memory)
      (contents : after.contents = { before.contents with indexes := session.owner })
      (now : later.now = ledger.now.give cursor (work.wrote? reply))
  | undone (back : operation = .rollback)
      (idle : later.finderPlaced = false ∧ later.walkerPlaced = false)

section Effect

variable {before after : Table} {ledger : Ledger} {operation : TableOperation}
  {answer : Except Fault TableAnswer} {cursor : Cursor} {place : Place}

theorem guards_stands (formed : before.Formed) (guards : before.Guards cursor place) :
    before.Stands cursor := by
  intro other found
  cases guards.placed.symm.trans found
  obtain ⟨i, few, position⟩ := (formed.counted.occupied _).mp guards.occupied
  exact ⟨guards.here, i, Nat.lt_of_lt_of_le few formed.counted.count, position⟩

theorem guards_onto {offset : UInt64} (occupied : offset ∈ before.contents.occupied)
    (cursor : Cursor) :
    before.Guards (cursor.onto before.buffer offset) ⟨before.buffer, offset⟩ :=
  ⟨rfl, rfl, occupied, rfl, nofun, nofun⟩

theorem change_touches (formed : before.Formed) (serves : before.Serves cursor)
    (guards : before.Guards cursor place) {work : CursorOperation} {reply : CursorAnswer}
    {session : Session (List ValueIndex)}
    (change : Change indexOwner (before.session cursor) work reply session) :
    Outside before.bytes (before.buffer.bytes session.memory) place.offset.toNat
      before.layout.stride.toNat ∧
    ∀ slot, before.layout.fields[before.keyPosition]? = some slot →
      contentAt (before.buffer.bytes session.memory) place.offset.toNat slot =
        contentAt before.bytes place.offset.toNat slot := by
  have room := occupied_room formed guards.occupied
  rw [← bytes_whole formed] at room
  rcases change_bytes formed serves (guards_stands formed guards) guards.whole change with
    same | ⟨other, pos, fresh, placed, patch, bytes⟩
  · rw [same]
    exact ⟨outside_refl _ _ _, fun _ _ => rfl⟩
  · cases guards.placed.symm.trans placed
    have inside := patch_inside formed.packed serves.shape patch
    rw [bytes]
    refine ⟨splice_outside _ _ _ _ _ inside room, fun slot known => ?_⟩
    obtain ⟨found, position, keyed, -⟩ := formed.key
    cases known.symm.trans position
    exact patch_key formed.packed serves.shape patch guards.locked known keyed
      (fun _ bytes saved => guards.saved bytes slot saved known) room

theorem change_guards (formed : before.Formed) (serves : before.Serves cursor)
    (guards : before.Guards cursor place) {work : CursorOperation} {reply : CursorAnswer}
    {session : Session (List ValueIndex)}
    (change : Change indexOwner (before.session cursor) work reply session) :
    before.Guards session.cursor place := by
  obtain ⟨placed, here, occupied, locked, whole, saved⟩ := guards
  cases change with
  | locked => exact ⟨placed, here, occupied, rfl, whole, saved⟩
  | committed | restored => exact ⟨placed, here, occupied, locked, nofun, nofun⟩
  | @begun other bytes found loaded =>
    cases placed.symm.trans found
    have fits : place.buffer.Fits before.memory := here.symm ▸ formed.sound.fits
    rw [session_cursor, serves.shape] at loaded
    obtain ⟨length, fields⟩ := saved_record fits loaded
    refine ⟨found, here, occupied, locked, ?_, ?_⟩
    · rintro _ ⟨⟩
      exact length
    · rintro _ slot ⟨⟩ known
      rw [fields formed.packed known, Place.contentOf, here]
      rfl
  | _ => exact ⟨placed, here, occupied, locked, whole, saved⟩

structure Keeps (before after : Table) : Prop where
  occupied : ∀ offset ∈ before.contents.occupied, offset ∈ after.contents.occupied
  content : ∀ offset ∈ before.contents.occupied, ∀ slot,
    before.layout.fields[before.keyPosition]? = some slot →
      contentAt after.bytes offset.toNat slot = contentAt before.bytes offset.toNat slot

theorem guards_kept (framed : before.Framed after) (kept : before.Keeps after)
    (guards : before.Guards cursor place) : after.Guards cursor place := by
  refine ⟨guards.placed, guards.here.trans framed.buffer.symm, kept.occupied _ guards.occupied,
    guards.locked, ?_, ?_⟩
  · rw [framed.layout]
    exact guards.whole
  · intro bytes slot saved known
    rw [framed.layout, framed.keyPosition] at known
    rw [guards.saved bytes slot saved known, kept.content _ guards.occupied slot known]

theorem content_elsewhere (formed : before.Formed) {bytes : Bytes} {touched offset : UInt64} {i : Nat}
    (position : touched.toNat = i * before.slotStride.toNat)
    (outside : Outside before.bytes bytes touched.toNat before.layout.stride.toNat)
    (member : offset ∈ before.contents.occupied) (differ : offset ≠ touched) {field : Nat}
    {slot : FieldSlot} (known : before.layout.fields[field]? = some slot) :
    contentAt bytes offset.toNat slot = contentAt before.bytes offset.toNat slot := by
  obtain ⟨j, -, other⟩ := (formed.counted.occupied offset).mp member
  have distinct : j ≠ i := by
    rintro rfl
    exact differ (UInt64.toNat_inj.mp (other.trans position.symm))
  have apart := slots_apart formed distinct
  rw [← other, ← position] at apart
  exact content_outside formed.packed known outside apart

theorem keeps_touched (formed : before.Formed) {touched : UInt64} {i : Nat}
    (position : touched.toNat = i * before.slotStride.toNat)
    (outside : Outside before.bytes after.bytes touched.toNat before.layout.stride.toNat)
    (same : touched ∈ before.contents.occupied → ∀ slot,
      before.layout.fields[before.keyPosition]? = some slot →
        contentAt after.bytes touched.toNat slot = contentAt before.bytes touched.toNat slot)
    (occupied : ∀ offset ∈ before.contents.occupied, offset ∈ after.contents.occupied) :
    before.Keeps after := by
  refine ⟨occupied, fun offset member slot known => ?_⟩
  by_cases here : offset = touched
  · subst here
    exact same member slot known
  · exact content_elsewhere formed position outside member here known

theorem enter_occupied {indexes : List ValueIndex} {key : Int64} {slotStride offset : UInt64} :
    offset ∈ (before.contents.enter indexes key slotStride).occupied ↔
      offset = before.contents.nextFree ∨ offset ∈ before.contents.occupied := by
  have after : (before.contents.enter indexes key slotStride).occupied =
      before.contents.occupied.insert before.contents.nextFree := rfl
  rw [after, Std.ExtTreeSet.mem_insert, Std.LawfulEqCmp.compare_eq_iff_eq, eq_comm]

theorem next_unoccupied (formed : before.Formed) :
    before.contents.nextFree ∉ before.contents.occupied := by
  intro member
  obtain ⟨i, few, position⟩ := (formed.counted.occupied _).mp member
  rw [formed.counted.next] at position
  have same := Nat.eq_of_mul_eq_mul_right (stride_positive formed) position
  omega

theorem effect_keeps (formed : before.Formed) {later : Ledger}
    (effect : before.Effect operation after ledger later)
    (active : later.finderPlaced = true ∨ later.walkerPlaced = true) : before.Keeps after := by
  cases effect with
  | same bytes contents =>
    refine ⟨?_, ?_⟩
    · rw [contents]
      exact fun _ member => member
    · rw [bytes]
      exact fun _ _ _ _ => rfl
  | entered room fresh outside keyed reads contents =>
    refine keeps_touched formed formed.counted.next outside ?_ ?_
    · exact fun member => absurd member (next_unoccupied formed)
    · intro offset member
      rw [contents, enter_occupied]
      exact .inr member
  | changed through serves guards change bytes contents =>
    obtain ⟨outside, same⟩ := change_touches formed serves guards change
    obtain ⟨i, -, position⟩ := (formed.counted.occupied _).mp guards.occupied
    rw [← bytes] at outside same
    refine keeps_touched formed position outside (fun _ => same) ?_
    rw [contents]
    exact fun _ member => member
  | undone back idle =>
    rw [idle.1, idle.2] at active
    rcases active with active | active <;> cases active

theorem lets_key (upheld : before.Upheld ledger) {key : Int64} {value : Value} {slot : FieldSlot}
    (keys : value.Keys slot.type key) (fresh : before.hasKey key = false) :
    before.lets slot value = true := by
  have tallied := upheld.tracks.now
  rw [lets, Cursor.consult]
  split
  · change (Contents.index? before.contents.indexes before.keyPosition).all
      (·.isFree value.stored) = true
    rw [Option.all_eq_true]
    intro index found
    obtain ⟨member, same⟩ := Contents.mem_of_index found
    rw [ValueIndex.isFree, Bool.not_eq_true', ← Bool.not_eq_true, Std.ExtTreeSet.contains_iff_mem,
      keys.plain]
    exact names_new upheld.formed tallied (fun index value => value ∈ index.claimed)
      tallied.claimed fresh keys.whole member same
  · rfl

theorem appended_effect (formed : before.Formed) {later : Ledger} {key : Int64} {value : Value}
    {slot : FieldSlot} (room : before.isFull = false) (fresh : before.hasKey key = false)
    (known : before.layout.fields[before.keyPosition]? = some slot)
    (keys : value.Keys slot.type key)
    (bytes : after.bytes = splice
      (splice before.bytes before.contents.nextFree.toNat before.layout.header.encode)
      (before.contents.nextFree.toNat + slot.offset.toNat) (value.encode slot.length.toNat))
    (contents : after.contents = before.contents.enter
      (before.told slot before.contents.nextFree value) key before.slotStride)
    (now : later.now = ledger.now.enter key before.contents.nextFree [before.keyPosition]) :
    before.Effect operation after ledger later := by
  have inside := formed.packed.inside _ slot known
  have header := formed.packed.header
  have reach := next_room formed room
  rw [← bytes_whole formed] at reach
  have heading : Outside before.bytes
      (splice before.bytes before.contents.nextFree.toNat before.layout.header.encode)
      before.contents.nextFree.toNat before.layout.stride.toNat := by
    apply splice_outside_first
    · rw [Header.encode_length]
      exact header
    · exact reach
  have length : (value.encode slot.length.toNat).length = slot.length.toNat :=
    FieldSlot.encode_length (formed.packed.sized _ slot known) keys.typed (keys.short slot.length)
  have content : contentAt after.bytes before.contents.nextFree.toNat slot =
      value.encode slot.length.toNat := by
    rw [bytes]
    exact content_written formed.packed known length reach
  have decoded : Value.decode? slot.type (value.encode slot.length.toNat) = some value.stored := by
    rw [← keys.typed]
    exact Value.decode_encode value slot.length.toNat
  rw [told, inform_all formed.counted.heads formed.finder known] at contents
  refine .entered room fresh ?_ ⟨slot, known, ?_⟩ ?_ contents now
  · rw [bytes]
    refine outside_trans heading (splice_outside _ _ _ _ _ ?_ ?_)
    · rw [length]
      exact inside
    · rw [heading.whole]
      exact reach
  · rw [content, signed_iff decoded, keys.plain]
    exact keys.whole
  · intro field member other column indexed
    cases List.mem_singleton.mp member
    cases known.symm.trans column
    rw [content]
    exact decoded

theorem copied_content (formed : before.Formed) {source : View} {sourceOffset : UInt64}
    (fits : source.Fits before.memory)
    (sourceRoom : sourceOffset.toNat + before.layout.stride.toNat ≤ source.size.toNat) {pos : Nat}
    (room : pos + before.layout.stride.toNat ≤ before.bytes.length) {field : Nat}
    {slot : FieldSlot} (known : before.layout.fields[field]? = some slot) :
    contentAt (splice before.bytes pos
      (source.peek before.memory sourceOffset before.layout.stride)) pos slot =
        source.peek before.memory (sourceOffset + slot.offset) slot.length := by
  have inside := formed.packed.inside field slot known
  have length :=
    View.peek_length source before.memory sourceOffset before.layout.stride fits sourceRoom
  have small := source.size.toNat_lt
  have position : (sourceOffset + slot.offset).toNat =
      sourceOffset.toNat + slot.offset.toNat := by
    rw [UInt64.toNat_add]
    exact Nat.mod_eq_of_lt (by omega)
  rw [content_whole formed.packed known length room, contentAt, Nat.zero_add,
    View.peek_eq_part _ _ _ _ sourceRoom, part_part _ _ _ _ _ inside, ← position]
  exact (View.peek_eq_part _ _ _ _ (by omega)).symm

theorem copied_effect (formed : before.Formed) {later : Ledger} {source : View}
    {sourceOffset : UInt64} {key : Int64} {memory : Memory} {held : Nat → Value}
    (fits : source.Fits before.memory)
    (room : before.isFull = false) (read : before.readKey source sourceOffset = .ok key)
    (fresh : before.hasKey key = false) (brings : before.Brings memory source sourceOffset)
    (reads : before.Reads memory before.contents.nextFree held)
    (bytes : after.bytes = before.buffer.bytes memory)
    (contents : after.contents = before.contents.enter
      (before.contents.indexes.map fun index =>
        index.assign before.contents.nextFree (held index.field)) key before.slotStride)
    (now : later.now = ledger.now.enter key before.contents.nextFree
      (List.range before.layout.fields.length)) :
    before.Effect operation after ledger later := by
  obtain ⟨slot, known, -, -⟩ := formed.key
  have reach := next_room formed room
  rw [← bytes_whole formed] at reach
  have sourceRoom := (View.in_bounds_iff _ _ _).mp brings.room
  have length := View.peek_length source before.memory sourceOffset before.layout.stride fits sourceRoom
  have whole : after.bytes = splice before.bytes before.contents.nextFree.toNat
      (source.peek before.memory sourceOffset before.layout.stride) := bytes.trans brings.bytes
  have all : ∀ index ∈ before.contents.indexes,
      index.assign before.contents.nextFree (held index.field) =
        ValueIndex.enterAll (List.range before.layout.fields.length) before.contents.nextFree held
          index := by
    intro index member
    obtain ⟨column, shape, -, -⟩ := head_of_mem formed.counted.heads member
    rw [ValueIndex.enterAll, if_pos]
    exact List.mem_range.mpr (List.getElem?_eq_some_iff.mp shape).1
  rw [List.map_congr_left all] at contents
  refine .entered room fresh ?_ ⟨slot, known, ?_⟩ ?_ contents now
  · rw [whole]
    exact splice_outside_first _ _ _ _ (Nat.le_of_eq length) reach
  · rw [whole, copied_content formed fits sourceRoom reach known]
    exact ((read_key_ok known).mp read).2
  · intro field _ column shape indexed
    rw [bytes]
    exact reads field column shape indexed

theorem step_effect (upheld : before.Upheld ledger) (allowed : ledger.Allows before operation)
    (step : Step before operation answer after) :
    before.Effect operation after ledger (ledger.note before operation answer) := by
  have formed := upheld.formed
  cases step with
  | failed =>
    rw [Ledger.note_error]
    exact .same rfl rfl rfl
  | refused =>
    rw [Ledger.note_refused]
    exact .same rfl rfl rfl
  | asked asks =>
    rw [Ledger.note_asked asks]
    exact .same rfl rfl rfl
  | found target =>
    rw [Ledger.note_sought (target_seeks target)]
    exact .same rfl rfl rfl
  | rewound =>
    rw [Ledger.note_rewound]
    exact .same rfl rfl rfl
  | walked | begun | committed => exact .same rfl rfl rfl
  | appended room fresh known fits free alike bytes =>
    exact appended_effect formed room fresh known (key_value_ok known fits) bytes rfl rfl
  | rejected room fresh known fits taken =>
    rw [lets_key upheld (key_value_ok known fits) fresh] at taken
    cases taken
  | copied room read fresh brings reads =>
    rw [Ledger.note_copied read]
    exact copied_effect formed allowed room read fresh brings reads rfl rfl rfl
  | stuck room brings elsewhere =>
    obtain ⟨moved, bound⟩ :=
      record_bound formed.finder upheld.homed.finder (next_room formed room)
    cases elsewhere.symm.trans bound
  | undone saved => exact .undone rfl ⟨rfl, rfl⟩
  | poked => exact allowed.elim
  | @changed role _ _ _ change =>
    obtain ⟨place, guards⟩ := upheld_cursor upheld allowed.2
    exact .changed rfl (formed_cursor formed role) guards change rfl rfl rfl
  | moved move =>
    exact absurd (move_moves move) (Bool.eq_false_iff.mp allowed.1)

end Effect

end Table

end RecordStore
