import RecordStore.Proofs.Formed

namespace RecordStore

theorem int32_of_small {key : Int64} (above : ¬ key < -2147483648) (below : ¬ key > 2147483647) :
    key.toInt32.toInt64 = key := by
  rw [Int64.lt_iff_toInt_lt] at above
  rw [GT.gt, Int64.lt_iff_toInt_lt] at below
  apply Int64.toInt_inj.mp
  rw [Int32.toInt_toInt64, Int64.toInt_toInt32]
  have low : (-2147483648 : Int64).toInt = -2147483648 := by decide
  have high : (2147483647 : Int64).toInt = 2147483647 := by decide
  rw [low] at above
  rw [high] at below
  exact Int.bmod_eq_of_le (by omega) (by omega)

theorem int16_of_small {key : Int64} (above : ¬ key < -32768) (below : ¬ key > 32767) :
    key.toInt16.toInt64 = key := by
  rw [Int64.lt_iff_toInt_lt] at above
  rw [GT.gt, Int64.lt_iff_toInt_lt] at below
  apply Int64.toInt_inj.mp
  rw [Int16.toInt_toInt64, Int64.toInt_toInt16]
  have low : (-32768 : Int64).toInt = -32768 := by decide
  have high : (32767 : Int64).toInt = 32767 := by decide
  rw [low] at above
  rw [high] at below
  exact Int.bmod_eq_of_le (by omega) (by omega)

structure Value.Keys (value : Value) (type : FieldType) (key : Int64) : Prop where
  typed : value.type = type
  cut : Value.ofInteger? type key = some value
  whole : value.integer? = some key
  plain : value.stored = value
  short : ∀ length, value.overflow? length = none

namespace Table

theorem key_value_ok {table : Table} {key : Int64} {value : Value} {slot : FieldSlot}
    (known : table.layout.fields[table.keyPosition]? = some slot)
    (fits : table.keyValue key = .ok value) : value.Keys slot.type key := by
  rw [keyValue] at fits
  obtain ⟨field, found, fits⟩ := except_bind_ok.mp fits
  cases (field_ok.mp found).symm.trans known
  cases type : slot.type with
  | int64 =>
    rw [type] at fits
    cases fits
    exact ⟨rfl, rfl, rfl, rfl, fun _ => rfl⟩
  | int32 =>
    rw [type] at fits
    by_cases far : key < -2147483648 ∨ key > 2147483647
    · simp only [if_pos far] at fits
      cases fits
    · simp only [if_neg far] at fits
      cases fits
      rw [not_or] at far
      refine ⟨rfl, rfl, ?_, rfl, fun _ => rfl⟩
      rw [Value.integer?, int32_of_small far.1 far.2]
  | int16 =>
    rw [type] at fits
    by_cases far : key < -32768 ∨ key > 32767
    · simp only [if_pos far] at fits
      cases fits
    · simp only [if_neg far] at fits
      cases fits
      rw [not_or] at far
      refine ⟨rfl, rfl, ?_, rfl, fun _ => rfl⟩
      rw [Value.integer?, int16_of_small far.1 far.2]
  | bool | char16 | fixedString | varString =>
    rw [type] at fits
    cases fits

theorem read_key_ok {table : Table} {source : View} {offset : UInt64} {key : Int64}
    {slot : FieldSlot} (known : table.layout.fields[table.keyPosition]? = some slot) :
    table.readKey source offset = .ok key ↔
      source.inBounds (offset + slot.offset) slot.length = true ∧
        slot.type.signed? (source.peek table.memory (offset + slot.offset) slot.length) =
          some key := by
  rw [readKey, keySlot, field_ok.mpr known, except_bind_ok]
  constructor
  · intro shown
    obtain ⟨field, ⟨⟩, found⟩ := shown
    obtain ⟨bytes, loaded, found⟩ := except_bind_ok.mp found
    obtain ⟨room, rfl⟩ := View.load_ok.mp loaded
    refine ⟨room, ?_⟩
    split at found
    · rename_i read
      cases found
      exact read
    · cases found
  · intro shown
    obtain ⟨room, read⟩ := shown
    refine ⟨slot, rfl, except_bind_ok.mpr ⟨_, View.load_ok.mpr ⟨room, rfl⟩, ?_⟩⟩
    rw [read]
    rfl

@[simp] theorem session_cursor (table : Table) (cursor : Cursor) :
    (table.session cursor).cursor = cursor := rfl

@[simp] theorem session_owner (table : Table) (cursor : Cursor) :
    (table.session cursor).owner = table.contents.indexes := rfl

theorem with_cursor_run {α : Type} {work : Session.Action (List ValueIndex) α} {table : Table}
    (role : Role) {answer : Except Fault α} {after : Session (List ValueIndex)}
    (ran : work (table.session (table.cursor role)) = outcome answer after) :
    withCursor role work table = outcome answer (table.settle role after) := by
  rw [withCursor, ran]
  cases answer <;> rfl

theorem settle_session (table : Table) (role : Role) :
    table.settle role (table.session (table.cursor role)) = table := by
  cases role <;> rfl

theorem settle_keeps {good : Cursor → Prop} {table : Table} {role : Role}
    {session : Session (List ValueIndex)} (finder : good table.finder) (walker : good table.walker)
    (works : good (table.cursor role) → good session.cursor) :
    good (table.settle role session).finder ∧ good (table.settle role session).walker := by
  cases role with
  | finder => exact ⟨works finder, walker⟩
  | walker => exact ⟨finder, works walker⟩

structure Awaits (table : Table) (place : Place) (slot : FieldSlot) : Prop where
  packed : table.layout.Packed
  serves : table.Serves table.finder
  known : table.layout.fields[table.keyPosition]? = some slot
  placed : table.finder.place = some place
  writable : place.buffer.isMutable = true
  holds : place.Holds table.layout
  unlocked : table.finder.keyLocked = false

section WriteKey

variable {table : Table} {place : Place} {slot : FieldSlot} {key : Int64} {value : Value}

def lets (table : Table) (slot : FieldSlot) (value : Value) : Bool :=
  (Cursor.consult indexOwner table.finder table.memory table.contents.indexes table.keyPosition slot
    value).1

def told (table : Table) (slot : FieldSlot) (offset : UInt64) (value : Value) : List ValueIndex :=
  Cursor.inform indexOwner table.finder table.memory table.contents.indexes table.keyPosition slot
    offset value

theorem consult_owner (cursor : Cursor) (memory : Memory) (indexes : List ValueIndex) (id : Nat)
    (slot : FieldSlot) (value : Value) :
    (Cursor.consult indexOwner cursor memory indexes id slot value).2 = indexes := by
  rw [Cursor.consult]
  split <;> rfl

def keyed (table : Table) (place : Place) (slot : FieldSlot) (value : Value) (memory : Memory)
    (notices : List Notice) : EStateM.Result Fault Table Bool :=
  if table.lets slot value then .ok true { table with
    memory
    contents := { table.contents with indexes := table.told slot place.offset value }
    notices }
  else .ok false { table with notices }

theorem awaits_open (awaits : table.Awaits place slot) :
    (slot.attrs.key && table.finder.keyLocked) = false := by
  rw [awaits.unlocked, Bool.and_false]

theorem awaits_field (awaits : table.Awaits place slot) :
    table.finder.layout.fields[table.keyPosition]? = some slot := by
  rw [awaits.serves.shape]
  exact awaits.known

-- A counter is never indexed, so nobody is asked and nobody is told.
theorem set_key_run (awaits : table.Awaits place slot) (keys : value.Keys slot.type key)
    (sequence : slot.attrs.sequence = true) {memory : Memory}
    (put : place.writeSlot table.memory slot value = .ok memory) :
    (onFinder (Session.setSequence table.keyPosition key) >>= fun _ => pure true) table =
      table.keyed place slot value memory table.notices := by
  have plain := (awaits.packed.counter _ slot awaits.known sequence).2
  have free : table.lets slot value = true := by
    simp [lets, Cursor.consult, plain]
  have same : table.told slot place.offset value = table.contents.indexes := by
    simp [told, Cursor.inform, plain]
  have set : table.finder.setSequence table.memory table.keyPosition key = .ok memory :=
    Cursor.set_sequence_ok.mpr ⟨place, slot, value, ⟨awaits.placed, awaits_field awaits, sequence,
      awaits.writable, awaits_open awaits⟩, keys.cut, put⟩
  have ran : Session.setSequence table.keyPosition key (table.session table.finder) =
      outcome (.ok ⟨⟩) { table.session table.finder with memory } := by
    rw [Session.setSequence, get_bind]
    exact attempt_ok set _ _
  rw [keyed, free, same, if_pos rfl]
  exact bind_ok (with_cursor_run .finder ran)

theorem claim_key_run (awaits : table.Awaits place slot) (keys : value.Keys slot.type key)
    (sequence : slot.attrs.sequence = false) {memory : Memory}
    (put : place.writeSlot table.memory slot value = .ok memory) :
    ∃ notices, onFinder (Session.write indexOwner table.keyPosition value) table =
      table.keyed place slot value memory notices := by
  have field := awaits_field awaits
  have accepts : table.finder.Accepts table.keyPosition value place slot :=
    ⟨awaits.placed, field, keys.typed, sequence, awaits.writable, keys.short slot.length,
      awaits_open awaits⟩
  obtain ⟨written, ran⟩ : ∃ written, table.finder.write indexOwner table.memory
      table.contents.indexes table.keyPosition value = .ok written :=
    Cursor.write_runs accepts put
  obtain ⟨found, column, accepted, asked, refusal, acceptance⟩ := Cursor.write_ok ran
  cases awaits.placed.symm.trans accepted.placed
  cases field.symm.trans accepted.field
  have settled : Session.write indexOwner table.keyPosition value (table.session table.finder) =
      outcome (.ok written.accepted) { table.session table.finder with
        memory := written.memory
        owner := written.owner
        notices := table.notices ++ written.notices } := by
    rw [Session.write, Session.settle, get_bind]
    exact attempt_ok ran _ _
  refine ⟨table.notices ++ written.notices, ?_⟩
  rw [onFinder, with_cursor_run .finder settled, keyed, lets, asked]
  cases answer : written.accepted with
  | false =>
    obtain ⟨sameMemory, sameOwner⟩ := refusal answer
    rw [sameMemory, sameOwner, consult_owner]
    rfl
  | true =>
    obtain ⟨stored, owner⟩ := acceptance answer
    cases put.symm.trans stored
    rw [owner, consult_owner]
    rfl

theorem write_key_run (awaits : table.Awaits place slot) (keys : value.Keys slot.type key) :
    ∃ memory notices, place.writeSlot table.memory slot value = .ok memory ∧
      writeKey key value table = table.keyed place slot value memory notices := by
  obtain ⟨memory, put⟩ := write_slot_runs awaits.packed awaits.known awaits.holds awaits.writable
    keys.typed (keys.short slot.length) table.memory
  have position : table.keySlot = .ok slot := field_ok.mpr awaits.known
  cases sequence : slot.attrs.sequence with
  | true =>
    refine ⟨memory, table.notices, put, ?_⟩
    rw [writeKey, get_bind, attempt_ok position, if_pos sequence]
    exact set_key_run awaits keys sequence put
  | false =>
    obtain ⟨notices, ran⟩ := claim_key_run awaits keys sequence put
    refine ⟨memory, notices, put, ?_⟩
    rw [writeKey, get_bind, attempt_ok position, sequence, if_neg Bool.false_ne_true]
    exact ran

end WriteKey

end Table

end RecordStore
