import RecordStore.Proofs.Regular
import RecordStore.Proofs.Unique

namespace RecordStore

namespace FieldType

def Fits : FieldType → Int64 → Prop
  | int64, _ => True
  | int32, key => -2 ^ 31 ≤ key.toInt ∧ key.toInt < 2 ^ 31
  | int16, key => -2 ^ 15 ≤ key.toInt ∧ key.toInt < 2 ^ 15
  | bool, _ | char16, _ | fixedString, _ | varString, _ => False

instance : (type : FieldType) → (key : Int64) → Decidable (type.Fits key)
  | int64, _ => inferInstanceAs (Decidable True)
  | int32, key => inferInstanceAs (Decidable (-2 ^ 31 ≤ key.toInt ∧ key.toInt < 2 ^ 31))
  | int16, key => inferInstanceAs (Decidable (-2 ^ 15 ≤ key.toInt ∧ key.toInt < 2 ^ 15))
  | bool, _ | char16, _ | fixedString, _ | varString, _ => inferInstanceAs (Decidable False)

def zero : FieldType → Value
  | int32 => .int32 0
  | int64 => .int64 0
  | int16 => .int16 0
  | bool => .bool false
  | char16 => .char16 0
  | fixedString | varString => .text []

end FieldType

theorem decode_le_zero (count : Nat) : decodeLE (List.replicate count 0) = 0 := by
  induction count with
  | zero => rfl
  | succ count ih =>
    rw [List.replicate_succ, decodeLE, ih]
    rfl

theorem Value.decode_zero {type : FieldType} (known : type ≠ .varString) (count : Nat) :
    Value.decode? type (List.replicate count 0) = some type.zero := by
  have blank : trim (List.replicate count 0) = [] := Value.trim_padded [] count 0 rfl
  cases type with
  | varString => exact absurd rfl known
  | _ =>
    simp only [decode?, decode_le_zero, blank]
    rfl

namespace Table

section Range

variable {table : Table} {key : Int64} {slot : FieldSlot}

theorem outside_iff {low high : Int64} {bound : Int} (bottom : low.toInt = -bound)
    (top : high.toInt + 1 = bound) :
    key < low ∨ key > high ↔ ¬ (-bound ≤ key.toInt ∧ key.toInt < bound) := by
  rw [GT.gt, Int64.lt_iff_toInt_lt, Int64.lt_iff_toInt_lt]
  omega

theorem int32_range : key < -2147483648 ∨ key > 2147483647 ↔ ¬ FieldType.int32.Fits key :=
  outside_iff (by decide) (by decide)

theorem int16_range : key < -32768 ∨ key > 32767 ↔ ¬ FieldType.int16.Fits key :=
  outside_iff (by decide) (by decide)

theorem key_fits (known : table.layout.fields[table.keyPosition]? = some slot)
    (fits : slot.type.Fits key) : ∃ value, table.keyValue key = .ok value := by
  rw [keyValue, keySlot, field_ok.mpr known]
  refine except_bind_runs rfl ?_
  cases type : slot.type with
  | int64 => exact ⟨_, rfl⟩
  | int32 =>
    rw [type] at fits
    exact ⟨_, if_neg fun far => int32_range.mp far fits⟩
  | int16 =>
    rw [type] at fits
    exact ⟨_, if_neg fun far => int16_range.mp far fits⟩
  | bool | char16 | fixedString | varString =>
    rw [type] at fits
    exact fits.elim

theorem key_misfits (known : table.layout.fields[table.keyPosition]? = some slot)
    (integer : slot.type.isInteger = true) (misfits : ¬ slot.type.Fits key) :
    table.keyValue key = .error (.keyOutOfRange key slot.type slot.name) := by
  rw [keyValue, keySlot, field_ok.mpr known]
  refine except_bind_error.mpr (.inr ⟨slot, rfl, ?_⟩)
  cases type : slot.type with
  | int64 =>
    rw [type] at misfits
    exact absurd trivial misfits
  | int32 =>
    rw [type] at misfits
    exact if_pos (int32_range.mpr misfits)
  | int16 =>
    rw [type] at misfits
    exact if_pos (int16_range.mpr misfits)
  | bool | char16 | fixedString | varString =>
    rw [type] at integer
    cases integer

end Range

def Named (table : Table) (_ : Bytes) (contents : Contents) (held : Holdings) : Prop :=
  table.Names ValueIndex.Carries contents.indexes held.keys

section Named

variable {before after start : Table} {operation : TableOperation} {ledger later : Ledger}

theorem effect_named (formed : before.Formed) (named : before.Named before.bytes before.contents ledger.now)
    (effect : before.Effect operation after ledger later) (forward : operation ≠ .rollback) :
    before.Named after.bytes after.contents later.now := by
  cases effect with
  | same bytes contents now =>
    rw [contents, now]
    exact named
  | entered room fresh outside keyed reads contents now =>
    rw [contents, now]
    exact enter_names ValueIndex.Carries formed ValueIndex.assign_carries named keyed reads
  | changed through serves guards change bytes contents now =>
    rw [Named, contents, now, Holdings.give_keys]
    intro index member key
    exact named index (change_claims formed serves guards change index member key) key
  | undone back => exact absurd back forward

theorem create_named {memory : Memory} {layout : Option Layout} {capacity : UInt64}
    {options : TableOptions} (created : create memory layout capacity options = .ok start) :
    Tracks start.Named start {} := by
  obtain ⟨known, -, made⟩ := create_ok created
  refine ⟨?_, ?_⟩
  · intro index member _ value carries
    rw [made.contents] at member
    obtain ⟨field, unique, rfl⟩ := Contents.blank_new member
    obtain ⟨offset, held⟩ := carries
    rw [Std.ExtTreeMap.getElem?_empty] at held
    cases held
  · rw [made.snapshot]
    exact nofun

theorem named_framed (framed : before.Framed after) (bytes : Bytes) (contents : Contents)
    (held : Holdings) (named : before.Named bytes contents held) :
    after.Named bytes contents held := by
  rw [Named, Names, framed.keyPosition]
  exact named

theorem regular_names (operations : List TableOperation) (upheld : start.Upheld ledger)
    (tracks : Tracks start.Named start ledger) (regular : start.Regular ledger operations) :
    (start.after operations).Named (start.after operations).bytes (start.after operations).contents
      (start.noted ledger operations).now :=
  regular_tracks Named (fun _ => True) named_framed
    (fun _ upheld => effect_named upheld.formed) operations upheld tracks regular fun _ _ => trivial

end Named

structure Fresh (before after : Table) (key : Int64) : Prop where
  finder : after.finder = before.finder.onto before.buffer before.contents.nextFree
  header : after.finder.headerMatches after.memory = .ok true
  key : ∃ slot value, before.layout.fields[before.keyPosition]? = some slot ∧
    after.finder.read after.memory before.keyPosition = .ok value ∧ value.type = slot.type ∧
    value.integer? = some key ∧ (slot.attrs.indexed = true →
      after.withValue before.keyPosition value = .ok [before.contents.nextFree])
  zero : ∀ field slot, before.layout.fields[field]? = some slot → field ≠ before.keyPosition →
    after.finder.read after.memory field = .ok slot.type.zero

section Append

variable {table : Table} {key : Int64} {value : Value} {slot : FieldSlot} {memory : Memory}
  {notices : List Notice}

theorem blank_content (formed : table.Formed) {keys : List Int64}
    (tallied : table.Tallied table.bytes table.contents keys) (room : table.isFull = false)
    {field : Nat} (known : table.layout.fields[field]? = some slot) :
    contentAt table.bytes table.contents.nextFree.toNat slot =
      List.replicate slot.length.toNat 0 := by
  have reach := next_room formed room
  have inside := formed.packed.inside field slot known
  have next := next_position formed tallied
  rw [← bytes_whole formed] at reach
  refine List.eq_replicate_iff.mpr ⟨part_length _ _ _ (by omega), fun byte member => ?_⟩
  obtain ⟨i, found⟩ := List.mem_iff_getElem?.mp member
  rw [contentAt, part_get] at found
  split at found
  · refine tallied.blank _ byte found fun j few => .inr ?_
    have spaced := formed.spaced
    have below := Nat.mul_le_mul_right table.slotStride.toNat few
    rw [Nat.succ_mul] at below
    omega
  · cases found

def appended (table : Table) (key : Int64) (value : Value) (slot : FieldSlot) (memory : Memory)
    (notices : List Notice) : Table :=
  { table with
    memory
    contents := table.contents.enter (table.told slot table.contents.nextFree value) key
      table.slotStride
    finder := table.finder.onto table.buffer table.contents.nextFree
    notices }

theorem finder_heads (formed : table.Formed) (room : table.isFull = false)
    (header : part (table.buffer.bytes memory) table.contents.nextFree.toNat 8 =
      table.layout.header.encode) :
    (table.finder.onto table.buffer table.contents.nextFree).headerMatches memory = .ok true := by
  have reach := next_room formed room
  have stride := formed.packed.header
  have loaded : Header.load table.buffer memory table.contents.nextFree =
      .ok table.layout.header := Header.load_encoded (by omega) header
  have shape : (table.finder.onto table.buffer table.contents.nextFree).layout = table.layout :=
    formed.finder.shape
  rw [Cursor.headerMatches, shape]
  change (Header.load table.buffer memory table.contents.nextFree >>= fun found =>
    pure (found == table.layout.header)) = _
  rw [loaded]
  exact congrArg Except.ok (beq_self_eq_true _)

theorem key_listed (formed : table.Formed) {keys : List Int64}
    (tallied : table.Tallied table.bytes table.contents keys)
    (named : table.Names ValueIndex.Carries table.contents.indexes keys)
    (paired : ∀ index ∈ table.contents.indexes, index.Paired)
    (fresh : table.hasKey key = false) (holds : value.Keys slot.type key)
    (known : table.layout.fields[table.keyPosition]? = some slot)
    (indexed : slot.attrs.indexed = true)
    (columns : (table.appended key value slot memory notices).Columns
      (table.appended key value slot memory notices).contents) :
    (table.appended key value slot memory notices).withValue table.keyPosition value =
      .ok [table.contents.nextFree] := by
  obtain ⟨index, member, position, -⟩ := index_of_column formed.counted.heads known indexed
  have absent : ¬ index.Carries value :=
    names_new formed tallied ValueIndex.Carries named fresh holds.whole member position
  refine (with_value_iff columns).mpr ⟨index.assign table.contents.nextFree value, ?_, position,
    assigned_alone (paired index member) absent _⟩
  have told : (table.appended key value slot memory notices).contents.indexes =
      table.told slot table.contents.nextFree value := rfl
  rw [told, Table.told, inform_all formed.counted.heads formed.finder known, holds.plain]
  refine List.mem_map.mpr ⟨index, member, ?_⟩
  rw [ValueIndex.enterAll, position, if_pos (List.mem_singleton.mpr rfl)]

theorem appended_fresh (formed : table.Formed) {keys : List Int64}
    (tallied : table.Tallied table.bytes table.contents keys)
    (named : table.Names ValueIndex.Carries table.contents.indexes keys)
    (paired : ∀ index ∈ table.contents.indexes, index.Paired)
    (room : table.isFull = false) (fresh : table.hasKey key = false)
    (known : table.layout.fields[table.keyPosition]? = some slot)
    (holds : value.Keys slot.type key)
    (bytes : table.buffer.bytes memory = splice
      (splice table.bytes table.contents.nextFree.toNat table.layout.header.encode)
      (table.contents.nextFree.toNat + slot.offset.toNat) (value.encode slot.length.toNat))
    (columns : (table.appended key value slot memory notices).Columns
      (table.appended key value slot memory notices).contents) :
    table.Fresh (table.appended key value slot memory notices) key := by
  have packed := formed.packed
  have inside := packed.inside _ slot known
  have reach := next_room formed room
  rw [← bytes_whole formed] at reach
  have whole : (value.encode slot.length.toNat).length = slot.length.toNat :=
    FieldSlot.encode_length (packed.sized _ slot known) holds.typed (holds.short slot.length)
  have header : part (table.buffer.bytes memory) table.contents.nextFree.toNat 8 =
      table.layout.header.encode := by
    rw [bytes]
    exact header_under packed known whole reach
  have content : contentAt (table.buffer.bytes memory) table.contents.nextFree.toNat slot =
      value.encode slot.length.toNat := by
    rw [bytes]
    exact content_written packed known whole reach
  have decoded : Value.decode? slot.type (value.encode slot.length.toNat) = some value := by
    rw [← holds.typed, Value.decode_encode, holds.plain]
  have reads {field : Nat} {other : FieldSlot} {content : Bytes} {held : Value}
      (column : table.layout.fields[field]? = some other)
      (here : contentAt (table.buffer.bytes memory) table.contents.nextFree.toNat other = content)
      (decoded : Value.decode? other.type content = some held) :
      (table.finder.onto table.buffer table.contents.nextFree).read memory field = .ok held := by
    rw [onto_read formed (next_room formed room) column, here]
    exact decoded
  refine ⟨rfl, finder_heads formed room header,
    ⟨slot, value, known, reads known content decoded, holds.typed, holds.whole,
      fun indexed => key_listed formed tallied named paired fresh holds known indexed columns⟩, ?_⟩
  intro field other column differ
  have blank : contentAt (table.buffer.bytes memory) table.contents.nextFree.toNat other =
      List.replicate other.length.toNat 0 := by
    rw [bytes, content_beside packed known whole reach column differ]
    exact blank_content formed tallied room column
  exact reads column blank
    (Value.decode_zero (FieldSlot.sized_known (packed.sized field other column)) _)

end Append

section Decide

variable {table : Table} {ledger : Ledger} {key : Int64} {slot : FieldSlot}

theorem full_iff (formed : table.Formed) {keys : List Int64}
    (tallied : table.Tallied table.bytes table.contents keys) :
    table.isFull = true ↔ keys.length = table.capacity.toNat := by
  have few := keys_few formed tallied
  rw [isFull, decide_eq_true_eq, GE.ge, UInt64.le_iff_toNat_le, tallied.count]
  omega

theorem append_let_in (upheld : table.Upheld ledger)
    (named : table.Named table.bytes table.contents ledger.now)
    (paired : ∀ index ∈ table.contents.indexes, index.Paired)
    (room : table.isFull = false) (fresh : table.hasKey key = false)
    (known : table.layout.fields[table.keyPosition]? = some slot) (fits : slot.type.Fits key) :
    table.answer (.append key) = .ok (.truth true) ∧
      table.Fresh (table.step (.append key)) key := by
  have formed := upheld.formed
  have ready := formed_ready formed
  have reach := next_room formed room
  obtain ⟨value, made⟩ := key_fits known fits
  have holds := key_value_ok known made
  obtain ⟨cursor, bound⟩ := record_bound formed.finder upheld.homed.finder reach
  obtain ⟨heading, heads⟩ := heading_runs ready bound
  obtain ⟨memory, notices, -, bytes, ran⟩ :=
    appended_run ready room fresh reach known made heads (lets_key upheld holds fresh)
  obtain ⟨answered, stepped⟩ := answer_step ran
  have reached : table.step (.append key) = table.appended key value slot memory notices := stepped
  have columns := (step_ready table (.append key) ready).columns
  rw [reached] at columns ⊢
  exact ⟨answered, appended_fresh formed upheld.tracks.now named paired room fresh known holds bytes
    columns⟩

theorem append_answers (upheld : table.Upheld ledger)
    (named : table.Named table.bytes table.contents ledger.now)
    (paired : ∀ index ∈ table.contents.indexes, index.Paired)
    (known : table.layout.fields[table.keyPosition]? = some slot)
    (integer : slot.type.isInteger = true) :
    table.answer (.append key) =
      (if ledger.now.keys.length = table.capacity.toNat ∨ key ∈ ledger.now.keys then
        .ok (.truth false)
      else if slot.type.Fits key then .ok (.truth true)
      else .error (.keyOutOfRange key slot.type slot.name)) ∧
    (table.answer (.append key) = .ok (.truth true) →
      table.Fresh (table.step (.append key)) key) := by
  have formed := upheld.formed
  have tallied : table.Tallied table.bytes table.contents ledger.now.keys := upheld.tracks.now
  have closes : table.isFull = true ∨ table.hasKey key = true ↔
      ledger.now.keys.length = table.capacity.toNat ∨ key ∈ ledger.now.keys :=
    or_congr (full_iff formed tallied) (key_present formed tallied)
  by_cases closed : table.isFull = true ∨ table.hasKey key = true
  · obtain ⟨notices, ran⟩ := append_refused closed
    have refused : (TableOperation.append key).run table =
      outcome (.ok (.truth false)) { table with notices } := bind_ok ran
    rw [if_pos (closes.mp closed), (answer_step refused).1]
    exact ⟨rfl, nofun⟩
  · rw [if_neg (mt closes.mpr closed)]
    obtain ⟨unfilled, absent⟩ := not_or.mp closed
    have room : table.isFull = false := Bool.of_not_eq_true unfilled
    have fresh : table.hasKey key = false := Bool.of_not_eq_true absent
    by_cases fits : slot.type.Fits key
    · obtain ⟨answered, made⟩ := append_let_in upheld named paired room fresh known fits
      rw [if_pos fits]
      exact ⟨answered, fun _ => made⟩
    · have failed : (TableOperation.append key).run table =
          outcome (.error (.keyOutOfRange key slot.type slot.name)) table :=
        bind_error (append_misfit room fresh (key_misfits known integer fits))
      rw [if_neg fits, (answer_step failed).1]
      exact ⟨rfl, nofun⟩

end Decide

theorem append_decides {schema : Schema} {layout : Layout} {memory : Memory} {capacity : UInt64}
    {options : TableOptions} {start : Table} (built : Layout.build schema = .ok layout)
    (created : create memory (some layout) capacity options = .ok start)
    (wide : layout.extent + options.slotPadding.toNat < UInt64.size)
    (operations : List TableOperation) (regular : start.Regular {} operations) (key : Int64) :
    let now := start.after operations
    let keys := (start.noted {} operations).now.keys
    ∃ slot, layout.fields[now.keyPosition]? = some slot ∧ slot.attrs.key = true ∧
      now.answer (.append key) =
        (if keys.length = capacity.toNat ∨ key ∈ keys then .ok (.truth false)
        else if slot.type.Fits key then .ok (.truth true)
        else .error (.keyOutOfRange key slot.type slot.name)) ∧
      now.contents.nextFree.toNat = keys.length * now.slotStride.toNat ∧
      (now.answer (.append key) = .ok (.truth true) → now.Fresh (now.step (.append key)) key) := by
  obtain ⟨packed, room⟩ := Layout.build_wide built wide
  have begun := create_upheld created packed room
  have upheld := regular_upheld operations begun regular
  have framed := after_framed begun.formed operations
  have tallied := upheld.tracks.now
  obtain ⟨slot, known, marked, integer⟩ := upheld.formed.key
  have decides := @append_answers _ _ key slot upheld
    (regular_names operations begun (create_named created) regular)
    (fun index member =>
      (after_recalls created (formed_ready begun.formed) operations index member).paired)
    known integer
  obtain ⟨same, shaped, made⟩ := create_ok created
  cases shaped
  rw [framed.capacity, made.limit] at decides
  rw [framed.layout, made.shape] at known
  exact ⟨slot, known, marked, decides.1, next_position upheld.formed tallied, decides.2⟩

theorem undone_key_appended_again :
    ∃ start, create Memory.empty (some pairLayout) 2 {} = .ok start ∧
      let now := start.after
        [.append 1, .begin, .append 7, .onFinder (.write 1 (.int32 5)), .rollback]
      now.answer (.append 1) = .ok (.truth false) ∧
      now.answer (.append 4294967296) = .error (.keyOutOfRange 4294967296 .int32 "id") ∧
      now.answer (.append 7) = .ok (.truth true) ∧ now.Fresh (now.step (.append 7)) 7 := by
  let run : List TableOperation :=
    [.append 1, .begin, .append 7, .onFinder (.write 1 (.int32 5)), .rollback]
  obtain ⟨start, created, regular, keys, position⟩ : ∃ start,
      create Memory.empty (some pairLayout) 2 {} = .ok start ∧ start.Regular {} run ∧
        (start.noted {} run).now.keys = [1] ∧ (start.after run).keyPosition = 0 := by
    refine ⟨_, rfl, ⟨trivial, trivial, trivial, ⟨rfl, ?_⟩, trivial, trivial⟩, ?_, ?_⟩
    · decide +kernel
    · decide +kernel
    · decide +kernel
  have decides (key : Int64) := append_decides pair_built created (by decide) run regular key
  rw [keys] at decides
  have answers (key : Int64) : (start.after run).answer (.append key) =
      (if [1].length = (2 : UInt64).toNat ∨ key ∈ [1] then .ok (.truth false)
      else if FieldType.int32.Fits key then .ok (.truth true)
      else .error (.keyOutOfRange key .int32 "id")) := by
    obtain ⟨slot, known, -, answered, -⟩ := decides key
    rw [position] at known
    cases known
    exact answered
  have again : (start.after run).answer (.append 7) = .ok (.truth true) :=
    (answers 7).trans (by decide)
  obtain ⟨-, -, -, -, -, fresh⟩ := decides 7
  exact ⟨start, created, (answers 1).trans (by decide), (answers 4294967296).trans (by decide), again,
    fresh again⟩

end Table

end RecordStore
