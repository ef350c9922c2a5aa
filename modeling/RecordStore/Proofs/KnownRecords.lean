import RecordStore.Proofs.ProgramActions
import RecordStore.Proofs.Walk

namespace RecordStore

structure FieldSlot.Takes (slot : FieldSlot) (value : Value) : Prop where
  type : value.type = slot.type
  plain : slot.attrs.sequence = false
  unkeyed : slot.attrs.key = false
  short : value.overflow? slot.length = none

namespace Table

-- What a program knows of a table since it started on it.
structure Book (start : Table) (keys : List Int64) (table : Table) (ledger : Ledger) : Prop where
  framed : start.Framed table
  kept : table.Kept ledger
  keys : ledger.now.keys = keys
  quiet : start.Quiet table

structure OnNumber (table : Table) (placed : Bool) (cursor : Cursor) (i : Nat) : Prop where
  placed : placed = true
  there : ∀ place, cursor.place = some place → place.offset.toNat = i * table.slotStride.toNat

def Opens (table : Table) (ledger : Ledger) (i : Nat) : Prop :=
  table.OnNumber ledger.finderPlaced table.finder i

def Passes (table : Table) (ledger : Ledger) (i : Nat) : Prop :=
  table.OnNumber ledger.walkerPlaced table.walker i

section Put

variable {table : Table} {ledger : Ledger} {field : Nat} {slot : FieldSlot} {value : Value}

-- What a program can say of a write through the finder: whether the value was let in, if the field
-- is unique, is not known beforehand.
structure Puts (table : Table) (field : Nat) (slot : FieldSlot) (value : Value) (accepted : Bool)
    (after : Table) : Prop where
  ran : Workload.put field value table = .ok ⟨⟩ after
  answered : table.answer (.onFinder (.write field value)) = .ok (.record (.truth accepted))
  stepped : table.step (.onFinder (.write field value)) = after
  quiet : table.Quiet after
  finder : after.finder = table.finder
  common : slot.attrs.unique = false → accepted = true ∧ ∀ place, table.finder.place = some place →
    table.HeldAt after.bytes place.offset field value.stored

theorem guards_on (formed : table.Formed) {cursor : Cursor} {place : Place}
    (serves : table.Serves cursor) (guards : table.Guards cursor place) :
    cursor.On table.layout table.memory place where
  shape := serves.shape
  placed := guards.placed
  holds := by
    rw [Place.Holds, guards.here]
    exact occupied_room formed guards.occupied
  fits := by
    rw [guards.here]
    exact formed.sound.fits

theorem put_puts (upheld : table.Upheld ledger) (placed : ledger.finderPlaced = true)
    (known : table.layout.fields[field]? = some slot) (takes : slot.Takes value) :
    ∃ accepted after, table.Puts field slot value accepted after := by
  have formed := upheld.formed
  obtain ⟨place, guards⟩ := upheld.finder placed
  have stands := guards_on formed formed.finder guards
  have accepts : table.finder.Accepts field (FieldWrite.plain value).value place slot := by
    refine ⟨guards.placed, ?_, takes.type, takes.plain, ?_, takes.short, ?_⟩
    · rw [formed.finder.shape]
      exact known
    · rw [guards.here]
      exact formed.sound.writable
    · rw [takes.unkeyed]
      rfl
  obtain ⟨written, ran, free, -, stored⟩ := @FieldWrite.run_puts _ indexOwner
    table.contents.indexes _ _ _ _ _ _ _ formed.packed stands accepts
  have wrote : Session.write indexOwner field value (table.session table.finder) =
      outcome (.ok written.accepted) { table.session table.finder with
        memory := written.memory
        owner := written.owner
        notices := table.notices ++ written.notices } := by
    rw [Session.write, Session.settle, get_bind]
    exact attempt_ok ran _ _
  obtain ⟨answered, stepped⟩ := @answer_step table _ (.onFinder (.write field value)) _
    (bind_outcome (with_cursor_run .finder (bind_outcome wrote CursorAnswer.truth)) TableAnswer.record)
  refine ⟨written.accepted, _, bind_ok (with_cursor_run .finder wrote), answered, stepped,
    Notice.quiet_more (Session.written_quiet ran), rfl, fun common => ?_⟩
  have yes := free (.inr common)
  refine ⟨yes, fun other found => ?_⟩
  cases guards.placed.symm.trans found
  have fresh := stored yes
  refine ⟨slot, known, ?_⟩
  change Value.decode? slot.type
    (contentAt (table.buffer.bytes written.memory) place.offset.toNat slot) = some value.stored
  rw [← guards.here, fresh.bytes,
    content_same fresh.whole (stored_room formed.packed stands known), ← takes.type]
  exact Value.decode_encode value slot.length.toNat

end Put

section Book

variable {start table : Table} {keys : List Int64} {ledger : Ledger} {key : Int64} {i : Nat}

-- What was known of the records is still known, of all but those written to.
def Bearing (table : Table) (ledger : Ledger) (written : Nat → Prop) (after : Table)
    (later : Ledger) : Prop :=
  ∀ (j field : Nat) (value : Value), ¬ written j → table.Bears ledger j field value →
    after.Bears later j field value

section Step

variable {operation : TableOperation} {reply : TableAnswer}

theorem book_step (book : start.Book keys table ledger)
    (answered : table.answer operation = .ok reply) (allowed : ledger.Allows table operation)
    (once : operation ≠ .onFinder .rollback ∧ operation ≠ .onWalker .rollback)
    (quiet : table.Quiet (table.step operation)) {later : List Int64}
    (now : (ledger.note table operation (.ok reply)).now.keys = later) :
    start.Book later (table.step operation) (ledger.note table operation (.ok reply)) := by
  have kept := step_kept book.kept allowed once
  rw [answered] at kept
  exact ⟨framed_trans book.framed (step_framed (step_cases book.kept.upheld.formed operation)),
    kept, now, Trans.trans book.quiet quiet⟩

theorem bearing_idle (upheld : table.Upheld ledger)
    (answered : table.answer operation = .ok reply) (allowed : ledger.Allows table operation)
    (forward : operation ≠ .rollback) (idle : table.through? operation = none) :
    table.Bearing ledger (fun _ => False) (table.step operation)
      (ledger.note table operation (.ok reply)) := by
  intro i field value _ bears
  rw [← answered]
  refine step_bears upheld allowed forward (fun _ _ _ through => ?_) bears
  rw [idle] at through
  cases through

end Step

theorem book_tallied (book : start.Book keys table ledger) :
    table.Tallied table.bytes table.contents keys := by
  have tallied : table.Tallied table.bytes table.contents ledger.now.keys :=
    book.kept.upheld.tracks.now
  rw [book.keys] at tallied
  exact tallied

theorem book_append (book : start.Book keys table ledger) {slot : FieldSlot}
    (known : start.layout.fields[start.keyPosition]? = some slot) (fits : slot.type.Fits key)
    (room : keys.length < start.capacity.toNat) (fresh : key ∉ keys) :
    ∃ after later, append key table = .ok true after ∧
      start.Book (keys ++ [key]) after later ∧ after.Opens later keys.length ∧
      table.Bearing ledger (fun _ => False) after later ∧
      after.snapshot = table.snapshot ∧ later.saved = ledger.saved := by
  obtain ⟨upheld, named, reflects⟩ := book.kept
  have tallied := book_tallied book
  have unfilled : table.isFull = false := by
    rw [Bool.eq_false_iff, Ne, full_iff upheld.formed tallied, book.framed.capacity]
    exact Nat.ne_of_lt room
  have absent : table.hasKey key = false := by
    rw [Bool.eq_false_iff, Ne, key_present upheld.formed tallied]
    exact fresh
  rw [← book.framed.layout, ← book.framed.keyPosition] at known
  obtain ⟨answered, made⟩ :=
    append_let_in upheld named.now reflects.now.paired unfilled absent known fits
  obtain ⟨taken, ran, yes⟩ :=
    @answered_run _ (append key) TableAnswer.truth _ _ _ rfl answered
  cases yes
  have entered : (ledger.note table (.append key) (.ok (.truth true))).now.keys =
      keys ++ [key] := by
    rw [← book.keys]
    rfl
  have booked := book_step book answered trivial ⟨by rintro ⟨⟩, by rintro ⟨⟩⟩
    (append_quiet ran) entered
  have bearing := bearing_idle upheld answered trivial nofun rfl
  refine ⟨_, _, ran, booked, ⟨rfl, ?_⟩, bearing, ?_, rfl⟩
  · rw [made.finder]
    rintro _ ⟨⟩
    rw [booked.framed.slotStride, ← book.framed.slotStride]
    exact next_position upheld.formed tallied
  · exact (keeps_ok (keeps_append key) ran).snapshot

theorem put_bears (upheld : table.Upheld ledger) (opens : table.Opens ledger i) {field : Nat}
    {slot : FieldSlot} {value : Value} {after : Table}
    (puts : table.Puts field slot value true after) (common : slot.attrs.unique = false) :
    after.Bears (ledger.note table (.onFinder (.write field value)) (.ok (.record (.truth true)))) i
      field value.stored := by
  obtain ⟨place, guards⟩ := upheld.finder opens.placed
  have position := opens.there place guards.placed
  have framed := step_framed (step_cases upheld.formed (.onFinder (.write field value)))
  rw [puts.stepped] at framed
  -- Only one offset is that of the record.
  have here {offset : UInt64} (also : offset.toNat = i * table.slotStride.toNat) :
      place.offset = offset := UInt64.toNat_inj.mp (position.trans also.symm)
  refine ⟨?_, ?_, ?_⟩
  · obtain ⟨j, few, also⟩ := (occupied_keys upheld _).mp guards.occupied
    rw [position] at also
    rw [Nat.eq_of_mul_eq_mul_right (stride_positive upheld.formed) also]
    exact few.trans_eq (congrArg List.length (Holdings.give_keys _ _ _)).symm
  · rw [framed.slotStride]
    intro offset also
    cases here also
    have given : (ledger.note table (.onFinder (.write field value))
        (.ok (.record (.truth true)))).now.given = ledger.now.given ++ [(place.offset, field)] :=
      Holdings.give_given guards.placed (some field)
    rw [given]
    exact List.mem_append_right _ (List.mem_singleton.mpr rfl)
  · rw [framed.slotStride]
    intro offset also
    cases here also
    rw [HeldAt, framed.layout]
    exact (puts.common common).2 place guards.placed

theorem book_put (book : start.Book keys table ledger) (opens : table.Opens ledger i) {field : Nat}
    {slot : FieldSlot} {value : Value} (known : start.layout.fields[field]? = some slot)
    (takes : slot.Takes value) :
    ∃ after later, Workload.put field value table = .ok ⟨⟩ after ∧ start.Book keys after later ∧
      after.Opens later i ∧ table.Bearing ledger (· = i) after later ∧
      (slot.attrs.unique = false → after.Bears later i field value.stored) := by
  have upheld := book.kept.upheld
  rw [← book.framed.layout] at known
  obtain ⟨accepted, after, puts⟩ := put_puts upheld opens.placed known takes
  obtain ⟨ran, answered, rfl, quiet, finder, common⟩ := id puts
  have allowed : ledger.Allows table (.onFinder (.write field value)) := ⟨rfl, opens.placed⟩
  have framed := step_framed (step_cases upheld.formed (.onFinder (.write field value)))
  have same : (ledger.note table (.onFinder (.write field value))
      (.ok (.record (.truth accepted)))).now.keys = keys := by
    rw [← book.keys]
    exact Holdings.give_keys _ _ _
  have booked := book_step book answered allowed ⟨by rintro ⟨⟩, by rintro ⟨⟩⟩ quiet same
  have bearing : table.Bearing ledger (· = i) (table.step (.onFinder (.write field value)))
      (ledger.note table (.onFinder (.write field value)) (.ok (.record (.truth accepted)))) := by
    intro j other held aside bears
    rw [← answered]
    refine step_bears upheld allowed nofun (fun cursor work place through found position => ?_)
      bears
    cases through
    have number := (opens.there place found).symm.trans position
    exact aside (Nat.eq_of_mul_eq_mul_right (stride_positive upheld.formed) number).symm
  refine ⟨_, _, ran, booked, ⟨opens.placed, ?_⟩, bearing, fun unasked => ?_⟩
  · rw [finder, framed.slotStride]
    exact opens.there
  · obtain ⟨rfl, -⟩ := common unasked
    exact put_bears upheld opens puts unasked

theorem book_seek (book : start.Book keys table ledger) (listed : keys[i]? = some key) :
    ∃ after later, seekKey key table = .ok true after ∧ start.Book keys after later ∧
      after.Opens later i ∧ table.Bearing ledger (fun _ => False) after later := by
  have upheld := book.kept.upheld
  rw [← book.keys] at listed
  obtain ⟨answered, offset, position, stepped⟩ := (upheld_consistent upheld).keyFound i key listed
  obtain ⟨found, ran, yes⟩ :=
    @answered_run _ (seekKey key) TableAnswer.truth _ _ _ rfl answered
  cases yes
  have quiet : table.Quiet (table.step (.seekKey key)) := by
    rw [stepped]
    exact Notice.quiet_refl _
  have booked := book_step book answered trivial ⟨by rintro ⟨⟩, by rintro ⟨⟩⟩ quiet book.keys
  have bearing := bearing_idle upheld answered trivial nofun rfl
  refine ⟨_, _, ran, booked, ⟨rfl, ?_⟩, bearing⟩
  rw [stepped]
  rintro _ ⟨⟩
  exact position

structure Marked (table : Table) (ledger : Ledger) (keys : List Int64) : Prop where
  snapshot : table.snapshot.isSome = true
  saved : (ledger.saved.map (·.keys)) = some keys

theorem book_begin (book : start.Book keys table ledger)
    (transactional : start.layout.transactional = true) :
    ∃ after later, begin table = .ok ⟨⟩ after ∧ start.Book keys after later ∧
      after.Marked later keys := by
  have ran : begin table =
      .ok ⟨⟩ { table with snapshot := some (table.bytes, table.contents) } := by
    rw [begin_run, Table.transactional, book.framed.layout, transactional]
    rfl
  obtain ⟨answered, stepped⟩ := @answer_step table _ .begin (.ok .done) (bind_ok ran)
  have quiet : table.Quiet (table.step .begin) := by
    rw [stepped]
    exact Notice.quiet_refl _
  have booked := book_step book answered trivial ⟨by rintro ⟨⟩, by rintro ⟨⟩⟩ quiet book.keys
  rw [stepped] at booked
  exact ⟨_, _, ran, booked, rfl, congrArg some book.keys⟩

theorem book_rollback {saved : List Int64} (book : start.Book keys table ledger)
    (marked : table.Marked ledger saved) :
    ∃ after later, rollback table = .ok true after ∧ start.Book saved after later := by
  obtain ⟨⟨bytes, contents⟩, found⟩ := Option.isSome_iff_exists.mp marked.snapshot
  obtain ⟨held, noted, same⟩ := Option.map_eq_some_iff.mp marked.saved
  have ran := rollback_some book.kept.upheld.formed.sound found
  obtain ⟨answered, stepped⟩ := @answer_step table _ .rollback (.ok (.truth true)) (bind_ok ran)
  have quiet : table.Quiet (table.step .rollback) := by
    rw [stepped]
    refine Notice.quiet_more fun notice member => ?_
    rw [List.mem_singleton.mp member]
    rfl
  have back : (ledger.note table .rollback (.ok (.truth true))).now.keys = saved := by
    change (ledger.saved.getD ledger.now).keys = saved
    rw [noted]
    exact same
  have booked := book_step book answered trivial ⟨by rintro ⟨⟩, by rintro ⟨⟩⟩ quiet back
  rw [stepped] at booked
  exact ⟨_, _, ran, booked⟩

/-! ### Going through -/

theorem book_rewind (book : start.Book keys table ledger) :
    ∃ after later, rewind table = .ok ⟨⟩ after ∧ start.Book keys after later ∧
      after.ahead = 0 ∧ table.Bearing ledger (fun _ => False) after later := by
  obtain ⟨answered, stepped⟩ := @answer_step table { table with ahead := 0 } .rewind
    (.ok (.truth { table with ahead := 0 }.hasMore)) rfl
  have quiet : table.Quiet (table.step .rewind) := by
    rw [stepped]
    exact Notice.quiet_refl _
  have same : (ledger.note table .rewind
      (.ok (.truth { table with ahead := 0 }.hasMore))).now.keys = keys := by
    rw [Ledger.note_rewound]
    exact book.keys
  have booked := book_step book answered trivial ⟨by rintro ⟨⟩, by rintro ⟨⟩⟩ quiet same
  have bearing := bearing_idle book.kept.upheld answered trivial nofun rfl
  rw [stepped] at booked bearing
  exact ⟨_, _, rfl, booked, rfl, bearing⟩

theorem book_next (book : start.Book keys table ledger) (few : i < keys.length)
    (position : table.ahead.toNat = i * table.slotStride.toNat) :
    ∃ after later, next table = .ok ⟨⟩ after ∧ start.Book keys after later ∧
      after.Passes later i ∧ after.ahead.toNat = (i + 1) * after.slotStride.toNat ∧
      table.Bearing ledger (fun _ => False) after later := by
  have upheld := book.kept.upheld
  have tallied := book_tallied book
  have below := Nat.lt_of_lt_of_le few (keys_few upheld.formed tallied)
  rw [← book.keys] at few
  obtain ⟨answered, stepped⟩ := next_walks upheld few position
  obtain ⟨_, ran, -⟩ :=
    @answered_run _ next (fun _ => TableAnswer.done) _ _ _ rfl answered
  have quiet : table.Quiet (table.step .next) := by
    rw [stepped]
    exact Notice.quiet_refl _
  have booked := book_step book answered trivial ⟨by rintro ⟨⟩, by rintro ⟨⟩⟩ quiet book.keys
  have bearing := bearing_idle upheld answered trivial nofun rfl
  refine ⟨_, _, ran, booked, ⟨rfl, ?_⟩, ?_, bearing⟩
  · rw [stepped]
    rintro _ ⟨⟩
    exact position
  · rw [stepped]
    exact ahead_next upheld.formed below position

theorem book_reads (book : start.Book keys table ledger) (passes : table.Passes ledger i)
    {field : Nat} {slot : FieldSlot} {value : Value}
    (known : start.layout.fields[field]? = some slot) (bears : table.Bears ledger i field value) :
    onWalker (Session.ask fun cursor memory => cursor.readAs memory slot.type field) table =
      .ok value table := by
  have upheld := book.kept.upheld
  have formed := upheld.formed
  rw [← book.framed.layout] at known
  obtain ⟨place, guards⟩ := upheld.walker passes.placed
  have stands := guards_on formed formed.walker guards
  have column : table.walker.layout.fields[field]? = some slot := by
    rw [stands.shape]
    exact known
  obtain ⟨other, also, decoded⟩ := bears.held place.offset (passes.there place guards.placed)
  cases known.symm.trans also
  have read : table.walker.read table.memory field = .ok value := by
    rw [Cursor.read_placed guards.placed column, read_slot_ok formed.packed known stands.holds,
      Place.contentOf, guards.here]
    exact decoded
  have readAs : table.walker.readAs table.memory slot.type field = .ok value := by
    rw [Cursor.readAs, Cursor.typedField]
    refine except_bind_ok.mpr ⟨slot, except_bind_ok.mpr ⟨slot, field_ok.mpr column, ?_⟩, read⟩
    rw [if_pos rfl]
    rfl
  have asked : Session.ask (fun cursor memory => cursor.readAs memory slot.type field)
      (table.session table.walker) = outcome (.ok value) (table.session table.walker) :=
    ask_run readAs
  exact with_cursor_run .walker asked

/-! ### Asking for a value -/

theorem book_lists (book : start.Book keys table ledger) {field : Nat} {slot : FieldSlot}
    (known : start.layout.fields[field]? = some slot) (indexed : slot.attrs.indexed = true)
    {values : Nat → Value} (bears : ∀ i < keys.length, table.Bears ledger i field (values i))
    (value : Value) : ∃ offsets, table.withValue field value = .ok offsets ∧ offsets.Nodup ∧
      ∀ offset, offset ∈ offsets ↔
        ∃ i < keys.length, offset.toNat = i * table.slotStride.toNat ∧ values i = value := by
  have upheld := book.kept.upheld
  have reflects := book.kept.reflects.now
  rw [← book.framed.layout] at known
  obtain ⟨index, member, rfl⟩ := mem_of_indexed upheld.formed.counted known indexed
  have ascending := ValueIndex.offsets_of_ascending index value
  refine ⟨index.offsetsOf value, (with_value_ok upheld.formed).mpr ⟨index, member, rfl, rfl⟩,
    ascending.imp fun less same => absurd (same ▸ less) (UInt64.lt_irrefl _), fun offset => ?_⟩
  rw [ValueIndex.mem_offsets_of, (reflects.paired index member).agree,
    reflects.agree index member]
  constructor
  · rintro ⟨given, held⟩
    obtain ⟨i, few, position⟩ := (occupied_keys upheld offset).mp (reflects.known _ given)
    rw [book.keys] at few
    obtain ⟨other, also, decoded⟩ := (bears i few).held offset position
    exact ⟨i, few, position, (held_at_decoded also decoded value).mp held⟩
  · rintro ⟨i, few, position, rfl⟩
    exact ⟨(bears i few).given offset position, (bears i few).held offset position⟩

end Book

end Table

end RecordStore
