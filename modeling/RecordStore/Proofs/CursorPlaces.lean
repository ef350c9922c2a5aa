import RecordStore.Proofs.Preservation

namespace RecordStore

def TableOperation.moves : TableOperation → Bool
  | on _ operation => operation.moves
  | _ => false

namespace Table

def Stands (table : Table) (cursor : Cursor) : Prop :=
  ∀ place, cursor.place = some place → place.buffer = table.buffer ∧
    ∃ i < table.capacity.toNat, place.offset.toNat = i * table.slotStride.toNat

structure Homed (table : Table) : Prop where
  finder : table.Stands table.finder
  walker : table.Stands table.walker
  ahead : ∃ i ≤ table.capacity.toNat, table.ahead.toNat = i * table.slotStride.toNat

theorem change_place {σ : Type} {owner : IndexOwner σ} {before after : Session σ}
    {operation : CursorOperation} {answer : CursorAnswer}
    (change : Change owner before operation answer after) :
    after.cursor.place = before.cursor.place := by
  cases change <;> rfl

structure Bound (table : Table) : Prop where
  finder : ∀ place, table.finder.place = some place → place.Holds table.layout
  walker : ∀ place, table.walker.place = some place → place.Holds table.layout

theorem create_bound {memory : Memory} {layout : Option Layout} {capacity : UInt64}
    {options : TableOptions} {table : Table}
    (created : create memory layout capacity options = .ok table) : table.Bound := by
  obtain ⟨known, -, made⟩ := create_ok created
  have nowhere (role : Role) (place : Place) (placed : (table.cursor role).place = some place) :
      place.Holds table.layout := by
    rw [made_unplaced made] at placed
    cases placed
  exact ⟨nowhere .finder, nowhere .walker⟩

theorem onto_holds {layout : Layout} {buffer : View} {offset : UInt64}
    (room : offset.toNat + layout.stride.toNat ≤ buffer.size.toNat) :
    ∀ place : Place, some ⟨buffer, offset⟩ = some place → place.Holds layout := by
  rintro place ⟨⟩
  exact room

theorem move_holds {before after : Session (List ValueIndex)} {operation : CursorOperation}
    {answer : Except Fault CursorAnswer} (move : Move before operation answer after) :
    ∀ place, after.cursor.place = some place → place.Holds before.cursor.layout := by
  cases move with
  | bare bound | headed bound | unheaded bound =>
    obtain ⟨room, -, rfl⟩ := Cursor.move_ok.mp bound
    rintro place ⟨⟩
    exact room

theorem create_homed {memory : Memory} {layout : Option Layout} {capacity : UInt64}
    {options : TableOptions} {table : Table}
    (created : create memory layout capacity options = .ok table) : table.Homed := by
  obtain ⟨known, -, made⟩ := create_ok created
  have nowhere (role : Role) : table.Stands (table.cursor role) := by
    intro place placed
    rw [made_unplaced made] at placed
    cases placed
  refine ⟨nowhere .finder, nowhere .walker, ⟨0, Nat.zero_le _, ?_⟩⟩
  rw [made.ahead, Nat.zero_mul]
  rfl

section Home

variable {before after : Table} {operation : TableOperation} {answer : Except Fault TableAnswer}

theorem step_bound (ready : before.Ready) (bound : before.Bound)
    (step : Step before operation answer after) : after.Bound := by
  obtain ⟨finder, walker⟩ := bound
  cases step with
  | appended _ _ _ _ _ _ _ reach | rejected _ _ _ _ _ _ _ reach | copied _ _ _ _ _ reach =>
    exact ⟨onto_holds reach, walker⟩
  | found _ room => exact ⟨onto_holds room, walker⟩
  | walked _ room => exact ⟨finder, onto_holds room⟩
  | changed change =>
    obtain ⟨finder, walker⟩ := @settle_keeps
      (fun cursor => ∀ place, cursor.place = some place → place.Holds before.layout) _ _ _ finder
      walker fun held place placed => held place ((change_place change).symm.trans placed)
    exact ⟨finder, walker⟩
  | @moved role _ _ _ move =>
    have holds := move_holds move
    rw [session_cursor, (ready_cursor ready role).shape] at holds
    obtain ⟨finder, walker⟩ := @settle_keeps
      (fun cursor => ∀ place, cursor.place = some place → place.Holds before.layout) _ _ _ finder
      walker fun _ => holds
    exact ⟨finder, walker⟩
  | _ => exact ⟨finder, walker⟩

theorem after_bound (table : Table) (operations : List TableOperation) (ready : table.Ready)
    (bound : table.Bound) : (table.after operations).Bound := by
  induction operations generalizing table with
  | nil => exact bound
  | cons operation rest ih =>
    exact ih (table.step operation) (step_ready table operation ready)
      (step_bound ready bound (ready_cases ready operation))

theorem stands_framed {cursor : Cursor} (framed : before.Framed after)
    (stands : before.Stands cursor) : after.Stands cursor := by
  intro place placed
  rw [framed.buffer, framed.capacity, framed.slotStride]
  exact stands place placed

theorem stands_onto {cursor : Cursor} {offset : UInt64} {i : Nat}
    (few : i < before.capacity.toNat) (position : offset.toNat = i * before.slotStride.toNat) :
    before.Stands (cursor.onto before.buffer offset) := by
  intro place placed
  cases placed
  exact ⟨rfl, i, few, position⟩

theorem stands_next (formed : before.Formed) (room : before.isFull = false) (cursor : Cursor) :
    before.Stands (cursor.onto before.buffer before.contents.nextFree) :=
  stands_onto (count_below room) formed.counted.next

theorem stands_occupied (formed : before.Formed) {offset : UInt64}
    (occupied : offset ∈ before.contents.occupied) (cursor : Cursor) :
    before.Stands (cursor.onto before.buffer offset) := by
  obtain ⟨i, few, position⟩ := (formed.counted.occupied offset).mp occupied
  exact stands_onto (Nat.lt_of_lt_of_le few formed.counted.count) position

theorem offset_of_index_some (formed : before.Formed) {i offset : UInt64} :
    before.offsetOfIndex i = some offset ↔ i.toNat < before.contents.count.toNat ∧
      offset.toNat = i.toNat * before.slotStride.toNat := by
  have bound := formed.counted.count
  have size := formed.size
  have small := before.buffer.size.toNat_lt
  rw [offsetOfIndex]
  by_cases past : i ≥ before.contents.count
  · rw [if_pos past]
    rw [GE.ge, UInt64.le_iff_toNat_le] at past
    constructor
    · intro found
      cases found
    · intro shown
      obtain ⟨few, -⟩ := shown
      omega
  · rw [if_neg past]
    rw [GE.ge, UInt64.le_iff_toNat_le, Nat.not_le] at past
    have below : i.toNat * before.slotStride.toNat ≤
        before.capacity.toNat * before.slotStride.toNat := Nat.mul_le_mul_right _ (by omega)
    have product : (i * before.slotStride).toNat = i.toNat * before.slotStride.toNat := by
      rw [UInt64.toNat_mul]
      exact Nat.mod_eq_of_lt (by omega)
    constructor
    · rintro ⟨⟩
      exact ⟨past, product⟩
    · intro shown
      obtain ⟨-, position⟩ := shown
      rw [← product, UInt64.toNat_inj] at position
      rw [position]

theorem target_occupied (formed : before.Formed) {offset : UInt64}
    (target : before.target? operation = some offset) : offset ∈ before.contents.occupied := by
  cases operation with
  | seekKey key => exact formed.counted.found key offset target
  | seekIndex i =>
    obtain ⟨few, position⟩ := (offset_of_index_some formed).mp target
    exact (formed.counted.occupied offset).mpr ⟨i.toNat, few, position⟩
  | seekOffset asked =>
    rw [target?] at target
    split at target
    · rename_i contained
      cases target
      exact Std.ExtTreeSet.contains_iff_mem.mp contained
    · cases target
  | _ => cases target

theorem ahead_below (formed : before.Formed)
    (aligned : ∃ i ≤ before.capacity.toNat, before.ahead.toNat = i * before.slotStride.toNat)
    (room : before.ahead.toNat + before.layout.stride.toNat ≤ before.buffer.size.toNat) :
    ∃ i < before.capacity.toNat, before.ahead.toNat = i * before.slotStride.toNat := by
  obtain ⟨i, few, position⟩ := aligned
  have header := formed.packed.header
  have size := formed.size
  refine ⟨i, ?_, position⟩
  rcases Nat.lt_or_eq_of_le few with below | rfl
  · exact below
  · omega

theorem ahead_next (formed : before.Formed) {i : Nat} (few : i < before.capacity.toNat)
    (position : before.ahead.toNat = i * before.slotStride.toNat) :
    (before.ahead + before.slotStride).toNat = (i + 1) * before.slotStride.toNat := by
  have small := before.buffer.size.toNat_lt
  have size := formed.size
  have below : (i + 1) * before.slotStride.toNat ≤
      before.capacity.toNat * before.slotStride.toNat := Nat.mul_le_mul_right _ few
  rw [Nat.succ_mul] at below ⊢
  rw [UInt64.toNat_add, position]
  exact Nat.mod_eq_of_lt (by omega)

theorem stands_like {cursor other : Cursor} (stands : before.Stands cursor)
    (same : other.place = cursor.place) : before.Stands other := by
  intro place placed
  exact stands place (same.symm.trans placed)

theorem step_stands (formed : before.Formed) (homed : before.Homed)
    (step : Step before operation answer after) (stays : operation.moves = false) :
    before.Stands after.finder ∧ before.Stands after.walker := by
  cases step with
  | appended room | copied room => exact ⟨stands_next formed room _, homed.walker⟩
  | rejected room => exact ⟨stands_like (stands_next formed room before.finder) rfl, homed.walker⟩
  | found target => exact ⟨stands_occupied formed (target_occupied formed target) _, homed.walker⟩
  | walked more room =>
    obtain ⟨i, few, position⟩ := ahead_below formed homed.ahead room
    exact ⟨homed.finder, stands_onto few position⟩
  | changed change =>
    exact settle_keeps homed.finder homed.walker fun stands =>
      stands_like stands (change_place change)
  | moved move =>
    exact absurd (move_moves move) (Bool.eq_false_iff.mp stays)
  | _ => exact ⟨homed.finder, homed.walker⟩

theorem step_ahead (formed : before.Formed)
    (aligned : ∃ i ≤ before.capacity.toNat, before.ahead.toNat = i * before.slotStride.toNat)
    (step : Step before operation answer after) :
    ∃ i ≤ before.capacity.toNat, after.ahead.toNat = i * before.slotStride.toNat := by
  cases step with
  | walked more room =>
    obtain ⟨i, few, position⟩ := ahead_below formed aligned room
    exact ⟨i + 1, few, ahead_next formed few position⟩
  | rewound => exact ⟨0, Nat.zero_le _, (Nat.zero_mul _).symm⟩
  | _ => exact aligned

theorem step_homed (table : Table) (operation : TableOperation) (formed : table.Formed)
    (homed : table.Homed) (stays : operation.moves = false) : (table.step operation).Homed := by
  have step := step_cases formed operation
  have framed := step_framed step
  obtain ⟨finder, walker⟩ := step_stands formed homed step stays
  refine ⟨stands_framed framed finder, stands_framed framed walker, ?_⟩
  rw [framed.capacity, framed.slotStride]
  exact step_ahead formed homed.ahead step

theorem record_bound {cursor : Cursor} (serves : before.Serves cursor)
    (stands : before.Stands cursor) {offset : UInt64}
    (room : offset.toNat + before.layout.stride.toNat ≤ before.buffer.size.toNat) :
    ∃ moved, cursor.bind before.buffer offset = .ok moved := by
  refine ⟨_, Cursor.move_ok.mpr ⟨?_, ?_, rfl⟩⟩
  · rw [serves.shape]
    exact room
  · cases placed : cursor.place with
    | none => simp
    | some place =>
      have same := (stands place placed).1
      simp [View.sameBytes, same]

theorem onto_read (formed : before.Formed) {offset : UInt64}
    (room : offset.toNat + before.layout.stride.toNat ≤ before.buffer.size.toNat) {field : Nat}
    {slot : FieldSlot} (known : before.layout.fields[field]? = some slot) {memory : Memory}
    {value : Value} :
    (before.finder.onto before.buffer offset).read memory field = .ok value ↔
      Value.decode? slot.type
        (contentAt (before.buffer.bytes memory) offset.toNat slot) = some value := by
  have column : (before.finder.onto before.buffer offset).layout.fields[field]? = some slot := by
    rw [Cursor.onto, formed.finder.shape]
    exact known
  have holds : Place.Holds ⟨before.buffer, offset⟩ before.layout := room
  rw [Cursor.read_placed rfl column, read_slot_ok formed.packed known holds]
  rfl

theorem seek_succeeds (formed : before.Formed) (homed : before.Homed) {offset : UInt64}
    (target : before.target? operation = some offset) :
    before.answer operation = .ok (.truth true) ∧
      before.step operation = { before with
        finder := before.finder.onto before.buffer offset } := by
  have room := occupied_room formed (target_occupied formed target)
  obtain ⟨moved, bound⟩ := record_bound formed.finder homed.finder room
  exact answer_step (seek_found target bound)

theorem seek_fails {operation : TableOperation} (seeks : operation.seeks = true)
    (target : before.target? operation = none) :
    before.answer operation = .ok (.truth false) ∧ before.step operation = before :=
  answer_step (seek_missed seeks target)

end Home

end Table

end RecordStore
