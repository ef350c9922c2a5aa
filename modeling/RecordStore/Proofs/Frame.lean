import RecordStore.Proofs.Change

namespace RecordStore

namespace Session

variable {σ : Type}

structure Alike (before after : Session σ) : Prop where
  layout : after.cursor.layout = before.cursor.layout
  reports : after.cursor.reports = before.cursor.reports
  memory : before.memory.Alike after.memory

theorem alike_refl (session : Session σ) : session.Alike session :=
  ⟨rfl, rfl, session.memory.alike_refl⟩

theorem alike_trans {a b c : Session σ} (first : a.Alike b) (later : b.Alike c) : a.Alike c :=
  ⟨later.layout.trans first.layout, later.reports.trans first.reports,
    Memory.alike_trans first.memory later.memory⟩

instance : Std.Refl (Alike (σ := σ)) := ⟨alike_refl⟩

instance : Trans (Alike (σ := σ)) Alike Alike := ⟨alike_trans⟩

theorem store_alike {view : View} {memory after : Memory} {offset : UInt64} {bytes : Bytes}
    (put : view.store memory offset bytes = .ok after) : memory.Alike after := by
  obtain ⟨-, -, rfl⟩ := View.store_ok.mp put
  exact View.poke_alike _ _ _ _

theorem change_alike {owner : IndexOwner σ} {before after : Session σ} {operation : CursorOperation}
    {answer : CursorAnswer} (change : Change owner before operation answer after) :
    before.Alike after := by
  cases change with
  | asked | locked | refused | begun | committed | kept =>
    exact ⟨rfl, rfl, Memory.alike_refl _⟩
  | headed | advanced => exact ⟨rfl, rfl, View.poke_alike _ _ _ _⟩
  | written _ _ _ put => exact ⟨rfl, rfl, store_alike put⟩
  | set _ _ put => exact ⟨rfl, rfl, store_alike put⟩
  | restored _ put => exact ⟨rfl, rfl, store_alike put⟩

theorem keeps_staying (owner : IndexOwner σ) (operation : CursorOperation)
    (stays : operation.moves = false) : Keeps Alike (operation.run owner) := by
  intro before
  rcases operation_changes owner operation before stays with ⟨fault, ran⟩ | ⟨_, after, ran, change⟩
  · rw [ran]
    exact alike_refl before
  · rw [ran]
    exact change_alike change

theorem keeps_move (buffer : View) (offset : UInt64) :
    Keeps (Alike (σ := σ)) (Session.bind buffer offset) := by
  intro before
  rw [Session.bind, get_bind]
  cases ran : before.cursor.bind buffer offset with
  | error fault => exact alike_refl before
  | ok cursor =>
    obtain ⟨-, -, rfl⟩ := Cursor.move_ok.mp ran
    exact ⟨rfl, rfl, before.memory.alike_refl⟩

theorem keeps_put_header : Keeps (Alike (σ := σ)) Session.putHeader := by
  intro before
  rw [Session.putHeader, get_bind]
  cases ran : before.cursor.putHeader before.memory with
  | error fault => exact alike_refl before
  | ok memory =>
    obtain ⟨place, -, -, -, rfl⟩ := Cursor.put_header_ok ran
    exact ⟨rfl, rfl, View.poke_alike _ _ _ _⟩

theorem keeps_lock_key : Keeps (Alike (σ := σ)) Session.lockKey :=
  fun before => ⟨rfl, rfl, before.memory.alike_refl⟩

theorem keeps_operation (owner : IndexOwner σ) (operation : CursorOperation) :
    Keeps Alike (operation.run owner) := by
  cases stays : operation.moves with
  | false => exact keeps_staying owner operation stays
  | true =>
    cases operation with
    | bind buffer offset =>
      exact keeps_bind (keeps_move buffer offset) fun _ => keeps_pure _
    | bindHeader buffer offset =>
      exact keeps_bind (keeps_move buffer offset) fun _ =>
        keeps_bind keeps_put_header fun _ => keeps_pure _
    | _ => cases stays

end Session

namespace Table

structure Framed (before after : Table) : Prop where
  layout : after.layout = before.layout
  keyPosition : after.keyPosition = before.keyPosition
  capacity : after.capacity = before.capacity
  slotStride : after.slotStride = before.slotStride
  buffer : after.buffer = before.buffer

theorem framed_refl (table : Table) : table.Framed table := ⟨rfl, rfl, rfl, rfl, rfl⟩

theorem framed_trans {a b c : Table} (first : a.Framed b) (later : b.Framed c) : a.Framed c :=
  ⟨later.layout.trans first.layout, later.keyPosition.trans first.keyPosition,
    later.capacity.trans first.capacity, later.slotStride.trans first.slotStride,
    later.buffer.trans first.buffer⟩

structure Alike (before after : Table) : Prop where
  layout : after.layout = before.layout
  keyPosition : after.keyPosition = before.keyPosition
  capacity : after.capacity = before.capacity
  slotStride : after.slotStride = before.slotStride
  buffer : after.buffer = before.buffer
  snapshot : after.snapshot = before.snapshot
  memory : before.memory.Alike after.memory

theorem alike_refl (table : Table) : table.Alike table :=
  ⟨rfl, rfl, rfl, rfl, rfl, rfl, table.memory.alike_refl⟩

theorem alike_trans {a b c : Table} (first : a.Alike b) (later : b.Alike c) : a.Alike c :=
  ⟨later.layout.trans first.layout, later.keyPosition.trans first.keyPosition,
    later.capacity.trans first.capacity, later.slotStride.trans first.slotStride,
    later.buffer.trans first.buffer, later.snapshot.trans first.snapshot,
    Memory.alike_trans first.memory later.memory⟩

theorem alike_framed {before after : Table} (alike : before.Alike after) : before.Framed after :=
  ⟨alike.layout, alike.keyPosition, alike.capacity, alike.slotStride, alike.buffer⟩

instance : Std.Refl Alike := ⟨alike_refl⟩

instance : Trans Alike Alike Alike := ⟨alike_trans⟩

theorem keeps_with_cursor {α : Type} {work : Session.Action (List ValueIndex) α}
    {role : Role} (kept : Keeps Session.Alike work) : Keeps Alike (withCursor role work) := by
  intro table
  have memory := (kept (table.session (table.cursor role))).memory
  rw [withCursor]
  cases ran : work (table.session (table.cursor role)) with
  | ok _ after | error _ after =>
    rw [ran] at memory
    exact ⟨rfl, rfl, rfl, rfl, rfl, rfl, memory⟩

theorem keeps_note (notice : Notice) : Keeps Alike (note notice) :=
  fun table => ⟨rfl, rfl, rfl, rfl, rfl, rfl, table.memory.alike_refl⟩

theorem keeps_refuse (notice : Notice) : Keeps Alike (refuse notice) :=
  keeps_bind (keeps_note notice) fun _ => keeps_pure _

theorem keeps_register (key : Int64) (offset : UInt64) : Keeps Alike (register key offset) :=
  fun table => ⟨rfl, rfl, rfl, rfl, rfl, rfl, table.memory.alike_refl⟩

theorem keeps_find (offset : UInt64) : Keeps Alike (find offset) :=
  keeps_bind keeps_get fun table =>
    keeps_with_cursor (keeps_bind (Session.keeps_move table.buffer offset)
      fun _ => Session.keeps_lock_key)

theorem keeps_overwriting (work : Table → Except Fault Memory)
    (alike : ∀ table memory, work table = .ok memory → table.memory.Alike memory) :
    Keeps Alike (get >>= fun table => attempt (work table) >>= fun memory =>
      set { table with memory }) := by
  intro table
  rw [get_bind]
  cases ran : work table with
  | error fault => exact alike_refl table
  | ok memory => exact ⟨rfl, rfl, rfl, rfl, rfl, rfl, alike table memory ran⟩

theorem keeps_poke (offset : UInt64) (bytes : Bytes) : Keeps Alike (poke offset bytes) :=
  keeps_overwriting _ fun _ _ put => Session.store_alike put

theorem keeps_clear (offset : UInt64) : Keeps Alike (clear offset) := by
  apply keeps_overwriting
  intro table memory put
  obtain ⟨-, -, rfl⟩ := View.fill_ok.mp put
  exact View.poke_alike _ _ _ _

theorem keeps_write_key (key : Int64) (value : Value) : Keeps Alike (writeKey key value) := by
  refine keeps_bind keeps_get fun table => ?_
  refine keeps_bind (keeps_attempt _) fun slot => ?_
  split
  · exact keeps_bind
      (keeps_with_cursor (keeps_of_answer (Session.keeps_operation indexOwner (.setSequence _ key))))
      fun _ => keeps_pure _
  · exact keeps_with_cursor (keeps_of_answer (Session.keeps_operation indexOwner (.write _ value)))

theorem keeps_append (key : Int64) : Keeps Alike (append key) := by
  refine keeps_bind keeps_get fun table => ?_
  split
  · exact keeps_refuse _
  split
  · exact keeps_refuse _
  refine keeps_bind (keeps_attempt _) fun value => ?_
  refine keeps_bind (keeps_with_cursor (keeps_bind
    (Session.keeps_move _ _) fun _ => Session.keeps_put_header)) fun _ => ?_
  refine keeps_bind (keeps_write_key key value) fun accepted => ?_
  split
  · refine keeps_bind (keeps_with_cursor Session.keeps_lock_key) fun _ => ?_
    exact keeps_bind (keeps_register key _) fun _ => keeps_pure _
  · refine keeps_bind (keeps_note _) fun _ => ?_
    exact keeps_bind (keeps_clear _) fun _ => keeps_pure _

theorem keeps_ask {σ α : Type} (question : Cursor → Memory → Except Fault α) :
    Keeps (Session.Alike (σ := σ)) (Session.ask question) :=
  keeps_bind keeps_get fun _ =>
    keeps_attempt _

theorem keeps_index_field (offset : UInt64) (field : Nat) :
    Keeps Alike (indexField offset field) :=
  keeps_bind (keeps_with_cursor (keeps_ask _)) fun _ =>
    fun table => ⟨rfl, rfl, rfl, rfl, rfl, rfl, table.memory.alike_refl⟩

theorem keeps_index_fields (offset : UInt64) (fields : List Nat) :
    Keeps Alike (fields.forM (indexField offset)) := by
  induction fields with
  | nil => exact keeps_pure _
  | cons field rest ih => exact keeps_bind (keeps_index_field offset field) fun _ => ih

theorem keeps_append_copy (source : View) (sourceOffset : UInt64) :
    Keeps Alike (appendCopy source sourceOffset) := by
  intro table
  rw [appendCopy, get_bind]
  split
  · exact keeps_refuse _ table
  cases table.readKey source sourceOffset with
  | error fault => exact alike_refl table
  | ok key =>
    rw [attempt_ok rfl]
    split
    · exact keeps_refuse _ table
    dsimp only
    cases copied : table.buffer.copy table.memory table.contents.nextFree source sourceOffset
        table.layout.stride with
    | error fault => exact alike_refl table
    | ok memory =>
      have overwritten : table.memory.Alike memory := by
        obtain ⟨-, -, -, rfl⟩ := View.copy_ok.mp copied
        exact View.poke_alike _ _ _ _
      have put : table.Alike { table with memory } :=
        ⟨rfl, rfl, rfl, rfl, rfl, rfl, overwritten⟩
      rw [attempt_ok rfl, set_bind]
      refine alike_trans put ?_
      refine keeps_bind (keeps_find _) (fun _ => ?_) _
      refine keeps_bind (keeps_register key _) fun _ => ?_
      exact keeps_bind (keeps_index_fields _ _) fun _ => keeps_pure _

theorem keeps_visit (offset : Option UInt64) : Keeps Alike (visit offset) := by
  cases offset with
  | none => exact keeps_pure _
  | some offset => exact keeps_bind (keeps_find offset) fun _ => keeps_pure _

theorem keeps_next : Keeps Alike next := by
  refine keeps_bind keeps_get fun table => ?_
  split
  · refine keeps_bind (keeps_with_cursor (keeps_bind
      (Session.keeps_move _ _) fun _ => Session.keeps_lock_key)) fun _ => ?_
    exact fun after => ⟨rfl, rfl, rfl, rfl, rfl, rfl, after.memory.alike_refl⟩
  · exact keeps_throw _

end Table

def TableOperation.transacts : TableOperation → Bool
  | begin | commit | rollback => true
  | _ => false

theorem Table.step_alike (table : Table) (operation : TableOperation)
    (plain : operation.transacts = false) : table.Alike (table.step operation) := by
  rw [step_eq]
  have answer {α : Type} {action : Action α} {word : α → TableAnswer} (kept : Keeps Alike action) :
      Keeps Alike (action >>= fun a => pure (word a)) :=
    keeps_bind kept fun _ => keeps_pure _
  cases operation with
  | begin | commit | rollback => cases plain
  | append key => exact answer (keeps_append key) table
  | appendCopy source offset => exact answer (keeps_append_copy source offset) table
  | seekKey | seekIndex | seekOffset => exact answer (keeps_visit _) table
  | hasKey | offsetOfIndex | hasMore => exact alike_refl table
  | withValue field value => exact answer (keeps_attempt _) table
  | next => exact answer keeps_next table
  | rewind => exact ⟨rfl, rfl, rfl, rfl, rfl, rfl, table.memory.alike_refl⟩
  | poke offset bytes => exact answer (keeps_poke offset bytes) table
  | on role operation =>
    exact answer (keeps_with_cursor (Session.keeps_operation indexOwner operation)) table

end RecordStore
