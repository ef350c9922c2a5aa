import RecordStore.Proofs.Key

namespace RecordStore

def Cursor.onto (cursor : Cursor) (buffer : View) (offset : UInt64) : Cursor :=
  { cursor with place := some ⟨buffer, offset⟩, keyLocked := true, snapshot := none }

def Contents.enter (contents : Contents) (indexes : List ValueIndex) (key : Int64)
    (slotStride : UInt64) : Contents :=
  { contents with indexes }.register key contents.nextFree slotStride

def TableOperation.asks : TableOperation → Bool
  | hasKey _ | offsetOfIndex _ | withValue .. | hasMore => true
  | _ => false

def TableOperation.seeks : TableOperation → Bool
  | seekKey _ | seekIndex _ | seekOffset _ => true
  | _ => false

namespace Table

def target? (table : Table) : TableOperation → Option UInt64
  | .seekKey key => table.contents.offsetByKey[key]?
  | .seekIndex i => table.offsetOfIndex i
  | .seekOffset offset => if table.contents.occupied.contains offset then some offset else none
  | _ => none

def Refuses (table : Table) : TableOperation → Prop
  | .append key => table.isFull = true ∨ table.hasKey key = true
  | .appendCopy source offset => table.isFull = true ∨
    ∃ key, table.readKey source offset = .ok key ∧ table.hasKey key = true
  | .seekKey key => table.contents.offsetByKey[key]? = none
  | .seekIndex i => table.offsetOfIndex i = none
  | .seekOffset offset => offset ∉ table.contents.occupied
  | .rollback => table.snapshot = none
  | _ => False

structure Brings (table : Table) (memory : Memory) (source : View) (sourceOffset : UInt64) :
    Prop where
  room : source.inBounds sourceOffset table.layout.stride = true
  alike : table.memory.Alike memory
  bytes : table.buffer.bytes memory = splice table.bytes table.contents.nextFree.toNat
    (source.peek table.memory sourceOffset table.layout.stride)
  poked : memory = table.buffer.poke table.memory table.contents.nextFree
    (source.peek table.memory sourceOffset table.layout.stride)

def Reads (table : Table) (memory : Memory) (offset : UInt64) (held : Nat → Value) : Prop :=
  ∀ (id : Nat) (slot : FieldSlot), table.layout.fields[id]? = some slot →
    slot.attrs.indexed = true → Value.decode? slot.type
      (Place.contentOf ⟨table.buffer, offset⟩ memory slot) = some (held id)

inductive Step (before : Table) : TableOperation → Except Fault TableAnswer → Table → Prop
  | failed {operation fault} : Step before operation (.error fault) before
  | refused {operation notices} (reason : before.Refuses operation) :
      Step before operation (.ok (.truth false)) { before with notices }
  | asked {operation answer} (asks : operation.asks = true) :
      Step before operation (.ok answer) before
  | appended {key value slot memory notices}
      (room : before.isFull = false) (fresh : before.hasKey key = false)
      (known : before.layout.fields[before.keyPosition]? = some slot)
      (fits : before.keyValue key = .ok value) (free : before.lets slot value = true)
      (alike : before.memory.Alike memory)
      (bytes : before.buffer.bytes memory = splice
        (splice before.bytes before.contents.nextFree.toNat before.layout.header.encode)
        (before.contents.nextFree.toNat + slot.offset.toNat) (value.encode slot.length.toNat))
      (reach : before.contents.nextFree.toNat + before.layout.stride.toNat ≤
        before.buffer.size.toNat) :
      Step before (.append key) (.ok (.truth true)) { before with
        memory
        contents := before.contents.enter (before.told slot before.contents.nextFree value) key
          before.slotStride
        finder := before.finder.onto before.buffer before.contents.nextFree
        notices }
  | rejected {key value slot memory notices}
      (room : before.isFull = false) (fresh : before.hasKey key = false)
      (known : before.layout.fields[before.keyPosition]? = some slot)
      (fits : before.keyValue key = .ok value) (taken : before.lets slot value = false)
      (alike : before.memory.Alike memory)
      (bytes : before.buffer.bytes memory = splice before.bytes before.contents.nextFree.toNat
        (List.replicate before.layout.stride.toNat 0))
      (reach : before.contents.nextFree.toNat + before.layout.stride.toNat ≤
        before.buffer.size.toNat) :
      Step before (.append key) (.ok (.truth false)) { before with
        memory
        finder := { before.finder.onto before.buffer before.contents.nextFree with
          keyLocked := false }
        notices }
  | copied {source sourceOffset key memory held notices}
      (room : before.isFull = false) (read : before.readKey source sourceOffset = .ok key)
      (fresh : before.hasKey key = false)
      (brings : before.Brings memory source sourceOffset)
      (reads : before.Reads memory before.contents.nextFree held)
      (reach : before.contents.nextFree.toNat + before.layout.stride.toNat ≤
        before.buffer.size.toNat) :
      Step before (.appendCopy source sourceOffset) (.ok (.truth true)) { before with
        memory
        contents := before.contents.enter
          (before.contents.indexes.map fun index =>
            index.assign before.contents.nextFree (held index.field))
          key before.slotStride
        finder := before.finder.onto before.buffer before.contents.nextFree
        notices }
  | stuck {source sourceOffset fault memory} (room : before.isFull = false)
      (brings : before.Brings memory source sourceOffset)
      (elsewhere : before.finder.bind before.buffer before.contents.nextFree = .error fault) :
      Step before (.appendCopy source sourceOffset) (.error fault) { before with memory }
  | found {operation offset} (target : before.target? operation = some offset)
      (room : offset.toNat + before.layout.stride.toNat ≤ before.buffer.size.toNat) :
      Step before operation (.ok (.truth true)) { before with
        finder := before.finder.onto before.buffer offset }
  | walked (more : before.hasMore = true)
      (room : before.ahead.toNat + before.layout.stride.toNat ≤ before.buffer.size.toNat) :
      Step before .next (.ok .done) { before with
        walker := before.walker.onto before.buffer before.ahead
        ahead := before.ahead + before.slotStride }
  | rewound : Step before .rewind (.ok (.truth { before with ahead := 0 }.hasMore))
      { before with ahead := 0 }
  | begun (transactional : before.layout.transactional = true) :
      Step before .begin (.ok .done) { before with
        snapshot := some (before.bytes, before.contents) }
  | committed : Step before .commit (.ok .done) { before with snapshot := none }
  | undone {bytes contents} (saved : before.snapshot = some (bytes, contents)) :
      Step before .rollback (.ok (.truth true)) (before.restored bytes contents)
  | poked {offset bytes memory} (put : before.buffer.store before.memory offset bytes = .ok memory) :
      Step before (.poke offset bytes) (.ok .done) { before with memory }
  | changed {role operation answer after}
      (change : Change indexOwner (before.session (before.cursor role)) operation answer after) :
      Step before (.on role operation) (.ok (.record answer)) (before.settle role after)
  | moved {role operation answer after}
      (move : Move (before.session (before.cursor role)) operation answer after) :
      Step before (.on role operation) (answer.map .record) (before.settle role after)

def Steps (table : Table) (operation : TableOperation) : Prop :=
  Step table operation (table.answer operation) (table.step operation)

theorem steps_of {table after : Table} {operation : TableOperation}
    {answer : Except Fault TableAnswer} (ran : operation.run table = outcome answer after)
    (step : Step table operation answer after) : table.Steps operation := by
  obtain ⟨answered, stepped⟩ := answer_step ran
  rw [Steps, answered, stepped]
  exact step

section Visit

variable {σ : Type}

theorem visit_run {session : Session σ} {buffer : View} {offset : UInt64} {cursor : Cursor}
    (bound : session.cursor.bind buffer offset = .ok cursor) :
    (Session.bind buffer offset >>= fun _ => Session.lockKey) session =
      outcome (.ok ⟨⟩) { session with cursor := session.cursor.onto buffer offset } := by
  rw [bind_ok (move_run bound)]
  obtain ⟨-, -, rfl⟩ := Cursor.move_ok.mp bound
  rfl

theorem visit_fault {session : Session σ} {buffer : View} {offset : UInt64} {fault : Fault}
    (failed : session.cursor.bind buffer offset = .error fault) :
    (Session.bind buffer offset >>= fun _ => Session.lockKey) session =
      outcome (.error fault) session :=
  bind_error (move_fault failed)

end Visit

section Steps

variable {table : Table}

theorem find_run {offset : UInt64} {cursor : Cursor}
    (bound : table.finder.bind table.buffer offset = .ok cursor) :
    find offset table = .ok ⟨⟩ { table with finder := table.finder.onto table.buffer offset } := by
  rw [find, get_bind]
  have session : (table.session table.finder).cursor.bind table.buffer offset = .ok cursor := bound
  exact with_cursor_run .finder (visit_run session)

theorem find_fault {offset : UInt64} {fault : Fault}
    (failed : table.finder.bind table.buffer offset = .error fault) :
    find offset table = .error fault table := by
  rw [find, get_bind]
  have session : (table.session table.finder).cursor.bind table.buffer offset = .error fault :=
    failed
  exact with_cursor_run .finder (visit_fault session)

theorem finder_room (ready : table.Ready) {offset : UInt64} {cursor : Cursor}
    (bound : table.finder.bind table.buffer offset = .ok cursor) :
    offset.toNat + table.layout.stride.toNat ≤ table.buffer.size.toNat := by
  have room := (Cursor.move_ok.mp bound).1
  rw [ready.finder.shape] at room
  exact room

theorem target_seeks {operation : TableOperation} {offset : UInt64}
    (target : table.target? operation = some offset) : operation.seeks = true := by
  cases operation with
  | seekKey | seekIndex | seekOffset => rfl
  | _ => cases target

theorem seek_run {operation : TableOperation} (seeks : operation.seeks = true) :
    operation.run table =
      (visit (table.target? operation) >>= fun found => pure (.truth found)) table := by
  cases operation with
  | seekKey | seekIndex | seekOffset => rfl
  | _ => cases seeks

theorem seek_found {operation : TableOperation} {offset : UInt64} {cursor : Cursor}
    (target : table.target? operation = some offset)
    (bound : table.finder.bind table.buffer offset = .ok cursor) :
    operation.run table = outcome (.ok (.truth true)) { table with
      finder := table.finder.onto table.buffer offset } := by
  have visited : visit (some offset) table =
    .ok true { table with finder := table.finder.onto table.buffer offset } :=
    bind_ok (find_run bound)
  rw [seek_run (target_seeks target), target]
  exact bind_ok visited

theorem seek_missed {operation : TableOperation} (seeks : operation.seeks = true)
    (target : table.target? operation = none) :
    operation.run table = outcome (.ok (.truth false)) table := by
  rw [seek_run seeks, target]
  rfl

theorem target_refuses {operation : TableOperation} (seeks : operation.seeks = true)
    (target : table.target? operation = none) : table.Refuses operation := by
  cases operation with
  | seekKey key => exact target
  | seekIndex i => exact target
  | seekOffset offset =>
    intro occupied
    rw [target?, if_pos (Std.ExtTreeSet.contains_iff_mem.mpr occupied)] at target
    cases target
  | _ => cases seeks

theorem seek_steps (ready : table.Ready) {operation : TableOperation}
    (seeks : operation.seeks = true) : table.Steps operation := by
  cases target : table.target? operation with
  | none => exact steps_of (seek_missed seeks target) (.refused (target_refuses seeks target))
  | some offset =>
    cases bound : table.finder.bind table.buffer offset with
    | error fault =>
      have ran : operation.run table =
          (visit (table.target? operation) >>= fun found => pure (.truth found)) table :=
        seek_run seeks
      rw [target] at ran
      have failed : operation.run table = outcome (.error fault) table :=
        ran.trans (bind_error (bind_error (find_fault bound)))
      exact steps_of failed .failed
    | ok cursor =>
      exact steps_of (seek_found target bound) (.found target (finder_room ready bound))

theorem next_eq (more : table.hasMore = true) : next table = (onWalker (do
      Session.bind table.buffer table.ahead
      Session.lockKey) >>= fun _ =>
    modify fun table => { table with ahead := table.ahead + table.slotStride }) table := by
  rw [next, get_bind, if_pos more]

theorem next_run {cursor : Cursor} (more : table.hasMore = true)
    (bound : table.walker.bind table.buffer table.ahead = .ok cursor) :
    TableOperation.next.run table = outcome (.ok .done) { table with
      walker := table.walker.onto table.buffer table.ahead
      ahead := table.ahead + table.slotStride } := by
  have session : (table.session table.walker).cursor.bind table.buffer table.ahead =
    .ok cursor := bound
  exact bind_ok ((next_eq more).trans (bind_ok (with_cursor_run .walker (visit_run session))))

theorem next_steps (ready : table.Ready) : table.Steps .next := by
  cases more : table.hasMore with
  | false =>
    have ran : next table = .error .noMoreRecords table := by
      rw [next, get_bind, if_neg (by rw [more]; exact Bool.false_ne_true)]
      rfl
    exact steps_of (bind_error ran) .failed
  | true =>
    cases bound : table.walker.bind table.buffer table.ahead with
    | error fault =>
      have session : (table.session table.walker).cursor.bind table.buffer table.ahead =
        .error fault := bound
      have ran := (next_eq more).trans (bind_error (with_cursor_run .walker (visit_fault session)))
      exact steps_of (bind_error ran) .failed
    | ok cursor =>
      have room := (Cursor.move_ok.mp bound).1
      rw [ready.walker.shape] at room
      exact steps_of (next_run more bound) (.walked more room)

theorem cursor_steps (role : Role) (operation : CursorOperation) :
    table.Steps (.on role operation) := by
  obtain ⟨answer, after, ran, ended⟩ :=
    operation_outcome indexOwner operation (table.session (table.cursor role))
  have answered : (TableOperation.on role operation).run table =
      outcome (answer.map TableAnswer.record) (table.settle role after) :=
    bind_outcome (with_cursor_run role ran) TableAnswer.record
  rcases ended with ⟨fault, rfl, rfl⟩ | ⟨a, rfl, change⟩ | move
  · rw [settle_session] at answered
    exact steps_of answered .failed
  · exact steps_of answered (.changed change)
  · exact steps_of answered (.moved move)

def headed (table : Table) (memory : Memory) : Table :=
  { table with
    memory
    finder := { table.finder.onto table.buffer table.contents.nextFree with keyLocked := false } }

structure Heads (table : Table) (memory : Memory) : Prop where
  ran : onFinder (do
    Session.bind table.buffer table.contents.nextFree
    Session.putHeader) table = .ok ⟨⟩ (table.headed memory)
  alike : table.memory.Alike memory
  bytes : table.buffer.bytes memory =
    splice table.bytes table.contents.nextFree.toNat table.layout.header.encode

theorem heading_runs (ready : table.Ready) {cursor : Cursor}
    (bound : table.finder.bind table.buffer table.contents.nextFree = .ok cursor) :
    ∃ memory, table.Heads memory := by
  have inside := finder_room ready bound
  have header := ready.packed.header
  have start : table.buffer.inBounds table.contents.nextFree 8 = true := by
    have eight : (8 : UInt64).toNat = 8 := rfl
    rw [View.in_bounds_iff, eight]
    omega
  have session : (table.session table.finder).cursor.bind table.buffer table.contents.nextFree =
    .ok cursor := bound
  have moved := move_run session
  obtain ⟨-, -, rfl⟩ := Cursor.move_ok.mp bound
  let fresh : Session (List ValueIndex) := table.session (table.headed table.memory).finder
  have put : fresh.cursor.putHeader fresh.memory = .ok (table.buffer.poke table.memory
      table.contents.nextFree table.layout.header.encode) := by
    rw [← ready.finder.shape]
    have placed : fresh.cursor.place = some ⟨table.buffer, table.contents.nextFree⟩ := rfl
    exact Cursor.put_header_runs placed ready.sound.writable start table.memory
  have ran : (Session.bind table.buffer table.contents.nextFree >>= fun _ => Session.putHeader)
      (table.session table.finder) = outcome (.ok ⟨⟩) { fresh with
        memory := table.buffer.poke table.memory table.contents.nextFree
          table.layout.header.encode } :=
    (bind_ok moved).trans (put_header_run put)
  refine ⟨_, with_cursor_run .finder ran, View.poke_alike _ _ _ _, ?_⟩
  apply View.bytes_poke _ _ _ _ ready.sound.fits
  rw [Header.encode_length]
  omega

theorem clear_run (table : Table) {offset : UInt64} (writable : table.buffer.isMutable = true)
    (fits : table.buffer.Fits table.memory)
    (room : offset.toNat + table.layout.stride.toNat ≤ table.buffer.size.toNat) :
    ∃ wiped, clear offset table = .ok ⟨⟩ { table with memory := wiped } ∧
      table.memory.Alike wiped ∧ table.buffer.bytes wiped =
        splice table.bytes offset.toNat (List.replicate table.layout.stride.toNat 0) := by
  let wiped : Memory :=
    table.buffer.poke table.memory offset (List.replicate table.layout.stride.toNat 0)
  have filled : table.buffer.fill table.memory offset table.layout.stride 0 = .ok wiped :=
    View.fill_ok.mpr ⟨writable, (View.in_bounds_iff _ _ _).mpr room, rfl⟩
  refine ⟨wiped, ?_, View.poke_alike _ _ _ _, ?_⟩
  · rw [clear, get_bind]
    exact attempt_ok filled _ _
  · apply View.bytes_poke _ _ _ _ fits
    rw [List.length_replicate]
    exact room

section Append

variable {key : Int64} {value : Value} {slot : FieldSlot} {memory : Memory}

theorem append_refused (closed : table.isFull = true ∨ table.hasKey key = true) :
    ∃ notices, append key table = .ok false { table with notices } := by
  by_cases full : table.isFull = true
  · rw [append, get_bind, if_pos full]
    exact ⟨_, rfl⟩
  · rw [append, get_bind, if_neg full, if_pos (closed.resolve_left full)]
    exact ⟨_, rfl⟩

theorem append_misfit (room : table.isFull = false) (fresh : table.hasKey key = false)
    {fault : Fault} (misfit : table.keyValue key = .error fault) :
    append key table = .error fault table := by
  rw [append, get_bind, room, if_neg Bool.false_ne_true, fresh, if_neg Bool.false_ne_true,
    attempt_error misfit]

def finish (key : Int64) (value : Value) (offset : UInt64) : Action Bool := do
  if ← writeKey key value then
    onFinder Session.lockKey
    register key offset
    return true
  else
    note (.appendClaimed key)
    clear offset
    return false

theorem append_eq (room : table.isFull = false) (fresh : table.hasKey key = false)
    (fits : table.keyValue key = .ok value) : append key table = (onFinder (do
      Session.bind table.buffer table.contents.nextFree
      Session.putHeader) >>= fun _ => finish key value table.contents.nextFree) table := by
  rw [append, get_bind, room, if_neg Bool.false_ne_true, fresh, if_neg Bool.false_ne_true,
    attempt_ok fits]
  rfl

theorem append_astray (room : table.isFull = false) (fresh : table.hasKey key = false)
    (fits : table.keyValue key = .ok value) {fault : Fault}
    (bound : table.finder.bind table.buffer table.contents.nextFree = .error fault) :
    append key table = .error fault table := by
  have session : (table.session table.finder).cursor.bind table.buffer table.contents.nextFree =
    .error fault := bound
  have moving : (Session.bind table.buffer table.contents.nextFree >>= fun _ =>
      Session.putHeader) (table.session table.finder) =
        outcome (.error fault) (table.session table.finder) := bind_error (move_fault session)
  have stuck : onFinder (do
      Session.bind table.buffer table.contents.nextFree
      Session.putHeader) table = .error fault table := with_cursor_run .finder moving
  exact (append_eq room fresh fits).trans (bind_error stuck)

theorem headed_awaits (ready : table.Ready)
    (reach : table.contents.nextFree.toNat + table.layout.stride.toNat ≤ table.buffer.size.toNat)
    (known : table.layout.fields[table.keyPosition]? = some slot) (memory : Memory) :
    (table.headed memory).Awaits ⟨table.buffer, table.contents.nextFree⟩ slot :=
  ⟨ready.packed, ⟨ready.finder.shape, ready.finder.reports⟩, known, rfl, ready.sound.writable, reach,
    rfl⟩

theorem appended_run (ready : table.Ready) (room : table.isFull = false)
    (fresh : table.hasKey key = false)
    (reach : table.contents.nextFree.toNat + table.layout.stride.toNat ≤ table.buffer.size.toNat)
    (known : table.layout.fields[table.keyPosition]? = some slot)
    (fits : table.keyValue key = .ok value) (heads : table.Heads memory)
    (free : table.lets slot value = true) : ∃ after notices, table.memory.Alike after ∧
      table.buffer.bytes after = splice
        (splice table.bytes table.contents.nextFree.toNat table.layout.header.encode)
        (table.contents.nextFree.toNat + slot.offset.toNat) (value.encode slot.length.toNat) ∧
      (TableOperation.append key).run table = outcome (.ok (.truth true)) { table with
        memory := after
        contents := table.contents.enter (table.told slot table.contents.nextFree value) key
          table.slotStride
        finder := table.finder.onto table.buffer table.contents.nextFree
        notices } := by
  have keys := key_value_ok known fits
  have holds : Place.Holds ⟨table.buffer, table.contents.nextFree⟩ table.layout := reach
  obtain ⟨after, notices, put, keyed⟩ := write_key_run (headed_awaits ready reach known memory) keys
  obtain ⟨alike, bytes⟩ := write_slot_ok ready.packed known holds
    (View.fits_alike ready.sound.fits heads.alike) keys.typed (keys.short slot.length) put
  have allowed : (table.headed memory).lets slot value = true := free
  rw [Table.keyed, allowed, if_pos rfl] at keyed
  have ran := ((append_eq room fresh fits).trans (bind_ok heads.ran)).trans (bind_ok keyed)
  refine ⟨after, notices, Memory.alike_trans heads.alike alike, ?_, bind_ok ran⟩
  rw [← heads.bytes]
  exact bytes

theorem appended_steps (ready : table.Ready) (room : table.isFull = false)
    (fresh : table.hasKey key = false)
    (reach : table.contents.nextFree.toNat + table.layout.stride.toNat ≤ table.buffer.size.toNat)
    (known : table.layout.fields[table.keyPosition]? = some slot)
    (fits : table.keyValue key = .ok value) (heads : table.Heads memory)
    (free : table.lets slot value = true) : table.Steps (.append key) := by
  obtain ⟨after, notices, alike, bytes, ran⟩ :=
    appended_run ready room fresh reach known fits heads free
  exact steps_of ran (.appended room fresh known fits free alike bytes reach)

theorem rejected_steps (ready : table.Ready) (room : table.isFull = false)
    (fresh : table.hasKey key = false)
    (reach : table.contents.nextFree.toNat + table.layout.stride.toNat ≤ table.buffer.size.toNat)
    (known : table.layout.fields[table.keyPosition]? = some slot)
    (fits : table.keyValue key = .ok value) (heads : table.Heads memory)
    (taken : table.lets slot value = false) : table.Steps (.append key) := by
  have holds : Place.Holds ⟨table.buffer, table.contents.nextFree⟩ table.layout := reach
  obtain ⟨_, notices, -, keyed⟩ :=
    write_key_run (headed_awaits ready reach known memory) (key_value_ok known fits)
  have refused : (table.headed memory).lets slot value = false := taken
  rw [Table.keyed, refused, if_neg Bool.false_ne_true] at keyed
  let noted : Table :=
    { table.headed memory with notices := notices ++ [.appendClaimed key] }
  have noting : note (.appendClaimed key) { table.headed memory with notices } = .ok ⟨⟩ noted := rfl
  obtain ⟨wiped, cleared, alike, bytes⟩ := clear_run noted ready.sound.writable
    (View.fits_alike ready.sound.fits heads.alike) holds
  have ran := ((((append_eq room fresh fits).trans (bind_ok heads.ran)).trans
    (bind_ok keyed)).trans (bind_ok noting)).trans (bind_ok cleared)
  refine steps_of (bind_ok ran) (.rejected room fresh known fits taken ?_ ?_ reach)
  · exact Memory.alike_trans heads.alike alike
  · have zeroed : table.buffer.bytes wiped = splice (table.buffer.bytes memory)
        table.contents.nextFree.toNat (List.replicate table.layout.stride.toNat 0) := bytes
    rw [zeroed, heads.bytes]
    apply splice_over
    · rw [List.length_replicate, Table.bytes, View.bytes_length _ _ ready.sound.fits]
      exact holds
    · rw [List.length_replicate, Header.encode_length]
      exact ready.packed.header

theorem append_steps (ready : table.Ready) (key : Int64) : table.Steps (.append key) := by
  by_cases closed : table.isFull = true ∨ table.hasKey key = true
  · obtain ⟨notices, ran⟩ := append_refused closed
    exact steps_of (bind_ok ran) (.refused closed)
  · obtain ⟨open_, absent⟩ := not_or.mp closed
    have room : table.isFull = false := Bool.of_not_eq_true open_
    have fresh : table.hasKey key = false := Bool.of_not_eq_true absent
    cases fits : table.keyValue key with
    | error fault => exact steps_of (bind_error (append_misfit room fresh fits)) .failed
    | ok value =>
      cases bound : table.finder.bind table.buffer table.contents.nextFree with
      | error fault => exact steps_of (bind_error (append_astray room fresh fits bound)) .failed
      | ok cursor =>
        obtain ⟨slot, known, -, -⟩ := ready.key
        obtain ⟨memory, heads⟩ := heading_runs ready bound
        have reach := finder_room ready bound
        cases free : table.lets slot value with
        | true => exact appended_steps ready room fresh reach known fits heads free
        | false => exact rejected_steps ready room fresh reach known fits heads free

end Append

theorem index_field_run {offset : UInt64} {field : Nat} {value : Value}
    (read : table.finder.read table.memory field = .ok value) :
    ∃ notices, indexField offset field table = .ok ⟨⟩ { table with
      contents := { table.contents with
        indexes := indexOwner.assigned table.memory table.contents.indexes field offset value }
      notices } := by
  have asked : Session.ask (fun cursor memory => cursor.read memory field)
      (table.session table.finder) = outcome (.ok value) (table.session table.finder) := by
    rw [Session.ask, get_bind]
    have found : (table.session table.finder).cursor.read (table.session table.finder).memory field =
      .ok value := read
    rw [found]
    rfl
  have ran : onFinder (Session.ask fun cursor memory => cursor.read memory field) table =
    .ok value table := with_cursor_run .finder asked
  exact ⟨_, bind_ok ran⟩

-- Every field is entered once, so the order in which the fields are entered does not matter.
theorem index_fields_run {offset : UInt64} {held : Nat → Value} (fields : List Nat)
    (once : fields.Nodup) (table : Table)
    (reads : ∀ field ∈ fields, table.finder.read table.memory field = .ok (held field)) :
    ∃ notices, fields.forM (indexField offset) table = .ok ⟨⟩ { table with
      contents := { table.contents with
        indexes := table.contents.indexes.map fun index =>
          if index.field ∈ fields then index.assign offset (held index.field) else index }
      notices } := by
  induction fields generalizing table with
  | nil =>
    refine ⟨table.notices, ?_⟩
    simp only [List.not_mem_nil, if_false, List.map_id']
    rfl
  | cons field rest ih =>
    obtain ⟨fresh, once⟩ := List.nodup_cons.mp once
    have read := reads field List.mem_cons_self
    obtain ⟨notices, first⟩ : ∃ notices, indexField offset field table = .ok ⟨⟩ _ :=
      index_field_run read
    let middle : Table := { table with
      contents := { table.contents with
        indexes :=
          indexOwner.assigned table.memory table.contents.indexes field offset (held field) }
      notices }
    obtain ⟨later, entered⟩ := ih once middle fun other member =>
      reads other (List.mem_cons_of_mem field member)
    have both : (indexOwner.assigned table.memory table.contents.indexes field offset
        (held field)).map (fun index =>
          if index.field ∈ rest then index.assign offset (held index.field) else index) =
        table.contents.indexes.map fun index =>
          if index.field ∈ field :: rest then index.assign offset (held index.field) else index := by
      simp only [indexOwner, List.map_map]
      apply List.map_congr_left
      intro index _
      by_cases here : index.field = field
      · simp [here, fresh, ValueIndex.assign]
      · simp [here]
    rw [both] at entered
    exact ⟨later, (bind_ok first).trans entered⟩

theorem reads_exist (packed : table.layout.Packed) (memory : Memory) (offset : UInt64) :
    ∃ held, table.Reads memory offset held := by
  have each (id : Nat) : ∃ value, ∀ slot, table.layout.fields[id]? = some slot →
      Value.decode? slot.type (Place.contentOf ⟨table.buffer, offset⟩ memory slot) = some value := by
    cases known : table.layout.fields[id]? with
    | none => exact ⟨.bool false, nofun⟩
    | some slot =>
      have sized := packed.sized id slot known
      obtain ⟨value, decoded⟩ := Value.decode_known (FieldSlot.sized_known sized)
        (Place.contentOf ⟨table.buffer, offset⟩ memory slot)
      refine ⟨value, fun other same => ?_⟩
      cases same
      exact decoded
  choose held decoded using each
  exact ⟨held, fun id slot known _ => decoded id slot known⟩

theorem entering_run (after : Table) (ready : table.Ready) {offset : UInt64}
    {held : Nat → Value} (shape : after.finder.layout = table.layout)
    (placed : after.finder.place = some ⟨table.buffer, offset⟩)
    (holds : Place.Holds ⟨table.buffer, offset⟩ table.layout)
    (indexes : after.contents.indexes = table.contents.indexes)
    (reads : table.Reads after.memory offset held) :
    ∃ notices, (table.contents.indexes.map (·.field)).forM (indexField offset) after =
      .ok ⟨⟩ { after with
        contents := { after.contents with
          indexes := table.contents.indexes.map fun index => index.assign offset (held index.field) }
        notices } := by
  have fields : ∀ field ∈ table.contents.indexes.map (·.field),
      after.finder.read after.memory field = .ok (held field) := by
    intro field member
    obtain ⟨index, known, rfl⟩ := List.mem_map.mp member
    obtain ⟨slot, column, indexed, -⟩ := head_of_mem ready.columns known
    rw [Cursor.read_placed placed (by rw [shape]; exact column)]
    exact (read_slot_ok ready.packed column holds).mpr (reads index.field slot column indexed)
  obtain ⟨notices, ran⟩ := index_fields_run _ (fields_nodup ready.columns) after fields
  refine ⟨notices, ran.trans ?_⟩
  have all : (after.contents.indexes.map fun index =>
      if index.field ∈ table.contents.indexes.map (·.field) then
        index.assign offset (held index.field) else index) =
      table.contents.indexes.map fun index => index.assign offset (held index.field) := by
    rw [indexes]
    apply List.map_congr_left
    intro index member
    exact if_pos (List.mem_map.mpr ⟨index, member, rfl⟩)
  rw [all]

section Copy

variable {source : View} {sourceOffset : UInt64} {key : Int64} {memory : Memory}

theorem copy_refused (closed : table.isFull = true ∨
    ∃ key, table.readKey source sourceOffset = .ok key ∧ table.hasKey key = true) :
    ∃ notices, appendCopy source sourceOffset table = .ok false { table with notices } := by
  by_cases full : table.isFull = true
  · rw [appendCopy, get_bind, if_pos full]
    exact ⟨_, rfl⟩
  · obtain ⟨key, read, present⟩ := closed.resolve_left full
    rw [appendCopy, get_bind, if_neg full, attempt_ok read, if_pos present]
    exact ⟨_, rfl⟩

theorem copy_unread (room : table.isFull = false) {fault : Fault}
    (unread : table.readKey source sourceOffset = .error fault) :
    appendCopy source sourceOffset table = .error fault table := by
  rw [appendCopy, get_bind, room, if_neg Bool.false_ne_true, attempt_error unread]

def adopt (key : Int64) (offset : UInt64) (fields : List Nat) : Action Bool := do
  find offset
  register key offset
  fields.forM (indexField offset)
  return true

theorem copy_eq (room : table.isFull = false) (read : table.readKey source sourceOffset = .ok key)
    (fresh : table.hasKey key = false) : appendCopy source sourceOffset table =
      (attempt (table.buffer.copy table.memory table.contents.nextFree source sourceOffset
        table.layout.stride) >>= fun memory => set { table with memory } >>= fun _ =>
          adopt key table.contents.nextFree (table.contents.indexes.map (·.field))) table := by
  rw [appendCopy, get_bind, room, if_neg Bool.false_ne_true, attempt_ok read, fresh,
    if_neg Bool.false_ne_true]
  rfl

theorem copy_brings (ready : table.Ready)
    (copied : table.buffer.copy table.memory table.contents.nextFree source sourceOffset
      table.layout.stride = .ok memory) : table.Brings memory source sourceOffset := by
  obtain ⟨-, room, sourceRoom, rfl⟩ := View.copy_ok.mp copied
  have short := source.peek_short table.memory sourceOffset table.layout.stride
  refine ⟨sourceRoom, View.poke_alike _ _ _ _, View.bytes_poke _ _ _ _ ready.sound.fits ?_, rfl⟩
  exact Nat.le_trans (Nat.add_le_add_left short _) ((View.in_bounds_iff _ _ _).mp room)

theorem copy_adopts (room : table.isFull = false)
    (read : table.readKey source sourceOffset = .ok key) (fresh : table.hasKey key = false)
    (copied : table.buffer.copy table.memory table.contents.nextFree source sourceOffset
      table.layout.stride = .ok memory) : appendCopy source sourceOffset table =
        adopt key table.contents.nextFree (table.contents.indexes.map (·.field))
          { table with memory } :=
  (copy_eq room read fresh).trans (attempt_ok copied _ _)

theorem adopted_run (ready : table.Ready) (room : table.isFull = false)
    (read : table.readKey source sourceOffset = .ok key) (fresh : table.hasKey key = false)
    (copied : table.buffer.copy table.memory table.contents.nextFree source sourceOffset
      table.layout.stride = .ok memory) {cursor : Cursor}
    (bound : table.finder.bind table.buffer table.contents.nextFree = .ok cursor)
    {held : Nat → Value} (reads : table.Reads memory table.contents.nextFree held) :
    ∃ notices, (TableOperation.appendCopy source sourceOffset).run table =
      outcome (.ok (.truth true)) { table with
        memory
        contents := table.contents.enter
          (table.contents.indexes.map fun index =>
            index.assign table.contents.nextFree (held index.field))
          key table.slotStride
        finder := table.finder.onto table.buffer table.contents.nextFree
        notices } := by
  have start := copy_adopts room read fresh copied
  let onto : Cursor := table.finder.onto table.buffer table.contents.nextFree
  let taken : Table := { table with
    memory
    contents := table.contents.register key table.contents.nextFree table.slotStride
    finder := onto }
  have found : find table.contents.nextFree { table with memory } =
    .ok ⟨⟩ { table with memory, finder := onto } := find_run bound
  have registered : register key table.contents.nextFree
    { table with memory, finder := onto } = .ok ⟨⟩ taken := rfl
  obtain ⟨notices, entered⟩ :=
    entering_run taken ready ready.finder.shape rfl (finder_room ready bound) rfl reads
  have ran := ((start.trans (bind_ok found)).trans (bind_ok registered)).trans (bind_ok entered)
  exact ⟨notices, bind_ok ran⟩

theorem adopted_steps (ready : table.Ready) (room : table.isFull = false)
    (read : table.readKey source sourceOffset = .ok key) (fresh : table.hasKey key = false)
    (copied : table.buffer.copy table.memory table.contents.nextFree source sourceOffset
      table.layout.stride = .ok memory) : table.Steps (.appendCopy source sourceOffset) := by
  have brings := copy_brings ready copied
  cases bound : table.finder.bind table.buffer table.contents.nextFree with
  | error fault =>
    have start := copy_adopts room read fresh copied
    have stuck : find table.contents.nextFree { table with memory } =
      .error fault { table with memory } := find_fault bound
    exact steps_of (bind_error (start.trans (bind_error stuck))) (.stuck room brings bound)
  | ok cursor =>
    obtain ⟨held, reads⟩ := reads_exist ready.packed memory table.contents.nextFree
    obtain ⟨notices, ran⟩ := adopted_run ready room read fresh copied bound reads
    exact steps_of ran (.copied room read fresh brings reads (finder_room ready bound))

theorem copy_steps (ready : table.Ready) (source : View) (sourceOffset : UInt64) :
    table.Steps (.appendCopy source sourceOffset) := by
  by_cases closed : table.isFull = true ∨
      ∃ key, table.readKey source sourceOffset = .ok key ∧ table.hasKey key = true
  · obtain ⟨notices, ran⟩ := copy_refused closed
    exact steps_of (bind_ok ran) (.refused closed)
  · obtain ⟨open_, absent⟩ := not_or.mp closed
    have room : table.isFull = false := Bool.of_not_eq_true open_
    cases read : table.readKey source sourceOffset with
    | error fault => exact steps_of (bind_error (copy_unread room read)) .failed
    | ok key =>
      have fresh : table.hasKey key = false :=
        Bool.of_not_eq_true fun present => absent ⟨key, read, present⟩
      cases copied : table.buffer.copy table.memory table.contents.nextFree source sourceOffset
          table.layout.stride with
      | error fault =>
        have outside := (copy_eq room read fresh).trans (attempt_error copied _ _)
        exact steps_of (bind_error outside) .failed
      | ok memory => exact adopted_steps ready room read fresh copied

end Copy

theorem begin_steps : table.Steps .begin := by
  cases transactional : table.layout.transactional with
  | false =>
    have ran : begin table = .error (.tableNotTransactional table.layout.name) table := by
      rw [begin_run, Table.transactional, transactional]
      rfl
    exact steps_of (bind_error ran) .failed
  | true =>
    have ran : begin table =
        .ok ⟨⟩ { table with snapshot := some (table.bytes, table.contents) } := by
      rw [begin_run, Table.transactional, transactional]
      rfl
    exact steps_of (bind_ok ran) (.begun transactional)

theorem rollback_steps (ready : table.Ready) : table.Steps .rollback := by
  cases saved : table.snapshot with
  | none => exact steps_of (bind_ok (rollback_none saved)) (.refused saved)
  | some pair =>
    obtain ⟨bytes, contents⟩ := pair
    exact steps_of (bind_ok (rollback_some ready.sound saved)) (.undone saved)

theorem poke_steps (offset : UInt64) (bytes : Bytes) : table.Steps (.poke offset bytes) := by
  cases put : table.buffer.store table.memory offset bytes with
  | error fault =>
    have ran : poke offset bytes table = .error fault table := by
      rw [poke, get_bind, attempt_error put]
    exact steps_of (bind_error ran) .failed
  | ok memory =>
    have ran : poke offset bytes table = .ok ⟨⟩ { table with memory } := by
      rw [poke, get_bind, attempt_ok put]
      rfl
    exact steps_of (bind_ok ran) (.poked put)

theorem with_value_steps (field : Nat) (value : Value) :
    table.Steps (.withValue field value) := by
  have ran : (TableOperation.withValue field value).run table =
      outcome ((table.withValue field value).map TableAnswer.offsets) table :=
    bind_outcome (attempt_outcome _ _) TableAnswer.offsets
  refine steps_of ran ?_
  cases table.withValue field value with
  | error fault => exact .failed
  | ok offsets => exact .asked rfl

theorem ready_cases (ready : table.Ready) (operation : TableOperation) :
    table.Steps operation := by
  cases operation with
  | append key => exact append_steps ready key
  | appendCopy source offset => exact copy_steps ready source offset
  | seekKey | seekIndex | seekOffset => exact seek_steps ready rfl
  | hasKey | offsetOfIndex | hasMore => exact steps_of rfl (.asked rfl)
  | withValue field value => exact with_value_steps field value
  | next => exact next_steps ready
  | rewind => exact steps_of rfl .rewound
  | begin => exact begin_steps
  | commit => exact steps_of rfl .committed
  | rollback => exact rollback_steps ready
  | poke offset bytes => exact poke_steps offset bytes
  | on role operation => exact cursor_steps role operation

theorem step_cases (formed : table.Formed) (operation : TableOperation) :
    table.Steps operation :=
  ready_cases (formed_ready formed) operation

end Steps

end Table

end RecordStore
