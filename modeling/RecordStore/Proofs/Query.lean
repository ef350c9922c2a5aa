import RecordStore.Proofs.Regular

namespace RecordStore

@[simp] theorem ValueIndex.enter_all_field (fields : List Nat) (offset : UInt64)
    (values : Nat → Value) (index : ValueIndex) :
    (index.enterAll fields offset values).field = index.field := by
  rw [enterAll]
  split <;> rfl

theorem ValueIndex.enter_all_nil (offset : UInt64) (values : Nat → Value) (index : ValueIndex) :
    index.enterAll [] offset values = index := if_neg List.not_mem_nil

theorem Holdings.give_given {held : Holdings} {cursor : Cursor} {place : Place}
    (placed : cursor.place = some place) (wrote : Option Nat) :
    (held.give cursor wrote).given = held.given ++ wrote.toList.map fun field =>
      (place.offset, field) := by
  rw [give.eq_def, placed]
  cases wrote with
  | none => exact (List.append_nil _).symm
  | some field => rfl

namespace Table

def HeldAt (table : Table) (bytes : Bytes) (offset : UInt64) (field : Nat) (value : Value) : Prop :=
  ∃ slot, table.layout.fields[field]? = some slot ∧
    Value.decode? slot.type (contentAt bytes offset.toNat slot) = some value

structure Reflects (table : Table) (bytes : Bytes) (contents : Contents) (held : Holdings) :
    Prop where
  paired : ∀ index ∈ contents.indexes, index.Paired
  known : ∀ pair ∈ held.given, pair.1 ∈ contents.occupied
  agree : ∀ index ∈ contents.indexes, ∀ (offset : UInt64) (value : Value),
    index.values[offset]? = some value ↔
      (offset, index.field) ∈ held.given ∧ table.HeldAt bytes offset index.field value

section Reflects

variable {table : Table} {bytes after : Bytes} {contents later : Contents} {held holdings : Holdings}
  {fields : List Nat} {offset : UInt64} {values : Nat → Value}

theorem held_at_congr {field : Nat} {value : Value}
    (same : ∀ slot, table.layout.fields[field]? = some slot →
      contentAt after offset.toNat slot = contentAt bytes offset.toNat slot) :
    table.HeldAt after offset field value ↔ table.HeldAt bytes offset field value := by
  constructor
  · intro shown
    obtain ⟨slot, known, decoded⟩ := shown
    rw [same slot known] at decoded
    exact ⟨slot, known, decoded⟩
  · intro shown
    obtain ⟨slot, known, decoded⟩ := shown
    rw [← same slot known] at decoded
    exact ⟨slot, known, decoded⟩

theorem given_enter {other : UInt64} {field : Nat}
    (given : holdings.given = held.given ++ fields.map fun field => (offset, field)) :
    (other, field) ∈ holdings.given ↔
      (other, field) ∈ held.given ∨ other = offset ∧ field ∈ fields := by
  rw [given, List.mem_append, List.mem_map]
  constructor
  · intro shown
    rcases shown with old | ⟨entered, listed, same⟩
    · exact .inl old
    · cases same
      exact .inr ⟨rfl, listed⟩
  · intro shown
    rcases shown with old | ⟨rfl, listed⟩
    · exact .inl old
    · exact .inr ⟨field, listed, rfl⟩

theorem enter_all_hit {index : ValueIndex} (entered : index.field ∈ fields) :
    (index.enterAll fields offset values).values[offset]? = some (values index.field) := by
  rw [ValueIndex.enterAll, if_pos entered, ValueIndex.assign_values, if_pos rfl]

theorem enter_all_miss {index : ValueIndex} {other : UInt64}
    (apart : ¬ (other = offset ∧ index.field ∈ fields)) :
    (index.enterAll fields offset values).values[other]? = index.values[other]? := by
  rw [ValueIndex.enterAll]
  split
  · rename_i entered
    rw [ValueIndex.assign_values, if_neg fun same => apart ⟨same, entered⟩]
  · rfl

theorem held_at_decoded {field : Nat} {slot : FieldSlot} {value : Value}
    (column : table.layout.fields[field]? = some slot)
    (decoded : Value.decode? slot.type (contentAt bytes offset.toNat slot) = some value)
    (other : Value) : table.HeldAt bytes offset field other ↔ value = other := by
  constructor
  · intro shown
    obtain ⟨found, also, read⟩ := shown
    cases column.symm.trans also
    exact Option.some.inj (decoded.symm.trans read)
  · rintro rfl
    exact ⟨slot, column, decoded⟩

theorem reflects_enter (counted : table.Counted contents)
    (reflects : table.Reflects bytes contents held)
    (indexes : later.indexes = contents.indexes.map (ValueIndex.enterAll fields offset values))
    (occupied : ∀ old ∈ contents.occupied, old ∈ later.occupied)
    (there : fields ≠ [] → offset ∈ later.occupied)
    (given : holdings.given = held.given ++ fields.map fun field => (offset, field))
    (reads : ∀ field ∈ fields, ∀ slot, table.layout.fields[field]? = some slot →
      slot.attrs.indexed = true →
        Value.decode? slot.type (contentAt after offset.toNat slot) = some (values field))
    (others : ∀ (field : Nat) (other : UInt64), (other, field) ∈ held.given →
      ¬ (other = offset ∧ field ∈ fields) → ∀ slot, table.layout.fields[field]? = some slot →
        slot.attrs.indexed = true →
          contentAt after other.toNat slot = contentAt bytes other.toNat slot) :
    table.Reflects after later holdings := by
  refine ⟨?_, ?_, ?_⟩
  · rw [indexes]
    intro index member
    obtain ⟨old, known, rfl⟩ := List.mem_map.mp member
    rw [ValueIndex.enterAll]
    split
    · exact ValueIndex.assign_paired (reflects.paired old known) _ _
    · exact reflects.paired old known
  · rintro ⟨other, field⟩ member
    rcases (given_enter given).mp member with old | ⟨rfl, entered⟩
    · exact occupied _ (reflects.known _ old)
    · exact there (List.ne_nil_of_mem entered)
  · rw [indexes]
    intro index member other value
    obtain ⟨old, known, rfl⟩ := List.mem_map.mp member
    obtain ⟨slot, column, indexed, -⟩ := head_of_mem counted.heads known
    rw [ValueIndex.enter_all_field, given_enter given]
    by_cases hit : other = offset ∧ old.field ∈ fields
    · have decoded := reads old.field hit.2 slot column indexed
      rw [hit.1, enter_all_hit hit.2, held_at_decoded column decoded, Option.some.injEq]
      exact (and_iff_right (.inr ⟨rfl, hit.2⟩)).symm
    · have content (before : (other, old.field) ∈ held.given) :
          table.HeldAt after other old.field value ↔ table.HeldAt bytes other old.field value := by
        refine held_at_congr fun found also => ?_
        cases column.symm.trans also
        exact others old.field other before hit slot column indexed
      rw [enter_all_miss hit, reflects.agree old known, or_iff_left hit]
      exact (and_congr_right content).symm

end Reflects

section Change

variable {before after : Table} {ledger : Ledger} {operation : TableOperation} {cursor : Cursor}
  {place : Place} {work : CursorOperation} {reply : CursorAnswer}
  {session : Session (List ValueIndex)}

theorem writes_wrote {field : Nat} {slot : FieldSlot} {value : Value}
    (writes : work.Writes field slot value) : work.wrote? (.truth true) = some field := by
  rcases writes with rfl | ⟨text, rfl, -⟩ <;> rfl

theorem wrote_refused : work.wrote? (.truth false) = none := by
  cases work <;> rfl

theorem patch_content (formed : before.Formed) (serves : before.Serves cursor) {pos inner : Nat}
    {fresh : Bytes} (patch : Patch cursor work inner fresh)
    (quiet : work.wrote? (.truth true) = none) (forward : work ≠ .rollback)
    (room : pos + before.layout.stride.toNat ≤ before.bytes.length) {field : Nat} {slot : FieldSlot}
    (known : before.layout.fields[field]? = some slot) (indexed : slot.attrs.indexed = true) :
    contentAt (splice before.bytes (pos + inner) fresh) pos slot =
      contentAt before.bytes pos slot := by
  cases patch with
  | header =>
    rw [Nat.add_zero]
    exact content_behind formed.packed known (Header.encode_length _) room
  | value writes =>
    rw [writes_wrote writes] at quiet
    cases quiet
  | @counter _ id counted _ column sequence unlocked whole =>
    rw [serves.shape] at column
    have differ : id ≠ field := by
      rintro rfl
      cases column.symm.trans known
      rw [(formed.packed.counter id slot known sequence).2] at indexed
      cases indexed
    exact content_apart formed.packed column known differ whole room
  | snapshot => exact absurd rfl forward

structure Tells (before : Table) (place : Place) (wrote : Option Nat)
    (session : Session (List ValueIndex)) (values : Nat → Value) : Prop where
  owner : session.owner = before.contents.indexes.map
    (ValueIndex.enterAll wrote.toList place.offset values)
  reads : ∀ field ∈ wrote.toList, ∀ slot, before.layout.fields[field]? = some slot →
    slot.attrs.indexed = true → Value.decode? slot.type
      (contentAt (before.buffer.bytes session.memory) place.offset.toNat slot) = some (values field)
  others : ∀ field ∉ wrote.toList, ∀ slot, before.layout.fields[field]? = some slot →
    slot.attrs.indexed = true →
      contentAt (before.buffer.bytes session.memory) place.offset.toNat slot =
        contentAt before.bytes place.offset.toNat slot

theorem tells_nothing (owner : session.owner = before.contents.indexes)
    (content : ∀ (field : Nat) (slot : FieldSlot), before.layout.fields[field]? = some slot →
      slot.attrs.indexed = true →
        contentAt (before.buffer.bytes session.memory) place.offset.toNat slot =
          contentAt before.bytes place.offset.toNat slot) :
    before.Tells place none session fun _ => .bool false := by
  refine ⟨?_, nofun, fun field _ => content field⟩
  rw [owner]
  have same : ∀ index ∈ before.contents.indexes, ValueIndex.enterAll (none : Option Nat).toList
      place.offset (fun _ => .bool false) index = index :=
    fun index _ => ValueIndex.enter_all_nil _ _ index
  exact ((List.map_congr_left same).trans (List.map_id' _)).symm

theorem written_tells (formed : before.Formed) (serves : before.Serves cursor)
    (stands : before.Stands cursor) {field : Nat} {value : Value} {slot : FieldSlot}
    {memory : Memory} {notices : List Notice} (accepts : cursor.Accepts field value place slot)
    (put : place.writeSlot before.memory slot value = .ok memory) :
    before.Tells place (some field) ⟨cursor, memory,
      Cursor.inform indexOwner cursor memory before.contents.indexes field slot place.offset value,
      notices⟩ fun _ => value.stored := by
  obtain ⟨bytes, whole⟩ := Session.slot_bytes (stands_confined formed serves stands) formed.packed
    accepts.placed accepts.field accepts.type accepts.short put
  change before.buffer.bytes memory = splice before.bytes _ _ at bytes
  have column := accepts.field
  rw [serves.shape] at column
  obtain ⟨here, holds⟩ := stands_holds formed stands accepts.placed
  rw [Place.Holds, here, ← bytes_whole formed] at holds
  refine ⟨inform_all formed.counted.heads serves column, ?_, ?_⟩
  · intro other member found also _
    cases List.mem_singleton.mp member
    cases column.symm.trans also
    have inside := formed.packed.inside field slot column
    dsimp only
    rw [bytes, content_same whole (by omega), ← accepts.type]
    exact Value.decode_encode value slot.length.toNat
  · intro other apart found also _
    have differ : field ≠ other := fun same => apart (List.mem_singleton.mpr same.symm)
    dsimp only
    rw [bytes]
    exact content_apart formed.packed column also differ whole holds

theorem change_tells (formed : before.Formed) (serves : before.Serves cursor)
    (guards : before.Guards cursor place) (forward : work ≠ .rollback)
    (change : Change indexOwner (before.session cursor) work reply session) :
    ∃ values, before.Tells place (work.wrote? reply) session values := by
  have bytes := change_bytes formed serves (guards_stands formed guards) guards.whole change
  have room := occupied_room formed guards.occupied
  rw [← bytes_whole formed] at room
  have quiet_content (quiet : work.wrote? (.truth true) = none) (field : Nat) (slot : FieldSlot)
      (known : before.layout.fields[field]? = some slot) (indexed : slot.attrs.indexed = true) :
      contentAt (before.buffer.bytes session.memory) place.offset.toNat slot =
        contentAt before.bytes place.offset.toNat slot := by
    rcases bytes with same | ⟨other, inner, fresh, placed, patch, bytes⟩
    · rw [same]
    · cases guards.placed.symm.trans placed
      rw [bytes]
      exact patch_content formed serves patch quiet forward room known indexed
  cases change with
  | asked asks =>
    cases work with
    | headerMatches | header | read | readAll | readAs =>
      exact ⟨_, tells_nothing rfl fun _ _ _ _ => rfl⟩
    | _ => cases asks
  | locked | begun | committed => exact ⟨_, tells_nothing rfl fun _ _ _ _ => rfl⟩
  | refused =>
    rw [wrote_refused]
    exact ⟨_, tells_nothing (consult_owner _ _ _ _ _ _) fun _ _ _ _ => rfl⟩
  | headed | set | advanced => exact ⟨_, tells_nothing rfl (quiet_content rfl)⟩
  | @written _ field value other slot memory notices writes accepts free put =>
    cases guards.placed.symm.trans accepts.placed
    rw [writes_wrote writes, consult_owner]
    exact ⟨_, written_tells formed serves (guards_stands formed guards) accepts put⟩
  | kept | restored => exact absurd rfl forward

theorem effect_reflects (upheld : before.Upheld ledger)
    (reflects : before.Reflects before.bytes before.contents ledger.now) {later : Ledger}
    (effect : before.Effect operation after ledger later) (forward : operation ≠ .rollback)
    (once : operation ≠ .onFinder .rollback ∧ operation ≠ .onWalker .rollback) :
    before.Reflects after.bytes after.contents later.now := by
  have formed := upheld.formed
  cases effect with
  | same bytes contents now =>
    rw [bytes, contents, now]
    exact reflects
  | entered room fresh outside keyed reads contents now =>
    refine reflects_enter formed.counted reflects ?_ ?_ ?_ ?_ reads ?_
    · rw [contents]
      rfl
    · intro offset member
      rw [contents, enter_occupied]
      exact .inr member
    · intro _
      rw [contents, enter_occupied]
      exact .inl rfl
    · rw [now]
      rfl
    · intro field other given _ slot known _
      have member := reflects.known _ given
      have differ : other ≠ before.contents.nextFree := fun same =>
        next_unoccupied formed (same ▸ member)
      exact content_elsewhere formed formed.counted.next outside member differ known
  | @changed cursor place work reply session through serves guards change bytes contents now =>
    have forward : work ≠ .rollback := by
      rintro rfl
      cases operation with
      | on role =>
        cases through
        cases role with
        | finder => exact once.1 rfl
        | walker => exact once.2 rfl
      | _ => cases through
    obtain ⟨values, tells⟩ := change_tells formed serves guards forward change
    obtain ⟨outside, -⟩ := change_touches formed serves guards change
    obtain ⟨i, -, position⟩ := (formed.counted.occupied _).mp guards.occupied
    obtain ⟨owner, reads, others⟩ := tells
    rw [← bytes] at outside reads others
    refine reflects_enter formed.counted reflects ?_ ?_ ?_ ?_ reads ?_
    · rw [contents]
      exact owner
    · rw [contents]
      exact fun _ member => member
    · rw [contents]
      exact fun _ => guards.occupied
    · rw [now]
      exact Holdings.give_given guards.placed _
    · intro field other given apart slot known indexed
      by_cases here : other = place.offset
      · subst here
        exact others field (fun entered => apart ⟨rfl, entered⟩) slot known indexed
      · exact content_elsewhere formed position outside (reflects.known _ given) here known
  | undone back => exact absurd back forward

end Change

theorem reflects_framed {before after : Table} (framed : before.Framed after) {bytes : Bytes}
    {contents : Contents} {held : Holdings} (reflects : before.Reflects bytes contents held) :
    after.Reflects bytes contents held := by
  obtain ⟨paired, known, agree⟩ := reflects
  refine ⟨paired, known, fun index member offset value => ?_⟩
  rw [HeldAt, framed.layout]
  exact agree index member offset value

theorem held_at_read {table : Table} (formed : table.Formed) {offset : UInt64}
    (occupied : offset ∈ table.contents.occupied) {field : Nat} {slot : FieldSlot}
    (known : table.layout.fields[field]? = some slot) {value : Value} :
    table.HeldAt table.bytes offset field value ↔
      (table.finder.onto table.buffer offset).read table.memory field = .ok value := by
  rw [onto_read formed (occupied_room formed occupied) known]
  constructor
  · intro shown
    obtain ⟨found, also, decoded⟩ := shown
    cases known.symm.trans also
    exact decoded
  · intro decoded
    exact ⟨slot, known, decoded⟩

section Run

variable {start : Table} {ledger : Ledger}

theorem create_reflects {memory : Memory} {layout : Option Layout} {capacity : UInt64}
    {options : TableOptions} (created : create memory layout capacity options = .ok start) :
    Tracks start.Reflects start {} := by
  obtain ⟨known, -, made⟩ := create_ok created
  refine ⟨⟨?_, nofun, ?_⟩, ?_⟩
  · intro index member
    rw [made.contents] at member
    obtain ⟨field, unique, rfl⟩ := Contents.blank_new member
    exact ValueIndex.new_paired field unique
  · intro index member offset value
    rw [made.contents] at member
    obtain ⟨field, unique, rfl⟩ := Contents.blank_new member
    rw [Std.ExtTreeMap.getElem?_empty]
    constructor
    · exact nofun
    · intro shown
      obtain ⟨given, -⟩ := shown
      cases given
  · rw [made.snapshot]
    exact nofun

theorem regular_reflects (operations : List TableOperation) (upheld : start.Upheld ledger)
    (tracks : Tracks start.Reflects start ledger) (regular : start.Regular ledger operations)
    (once : ∀ operation ∈ operations,
      operation ≠ .onFinder .rollback ∧ operation ≠ .onWalker .rollback) :
    (start.after operations).Reflects (start.after operations).bytes
      (start.after operations).contents (start.noted ledger operations).now :=
  regular_tracks Reflects
    (fun operation => operation ≠ .onFinder .rollback ∧ operation ≠ .onWalker .rollback)
    (fun framed _ _ _ => reflects_framed framed)
    (fun once upheld now effect forward => effect_reflects upheld now effect forward once)
    operations upheld tracks regular once

end Run

theorem regular_with_value {schema : Schema} {layout : Layout} {memory : Memory} {capacity : UInt64}
    {options : TableOptions} {start : Table} (built : Layout.build schema = .ok layout)
    (created : create memory (some layout) capacity options = .ok start)
    (wide : layout.extent + options.slotPadding.toNat < UInt64.size)
    (operations : List TableOperation) (regular : start.Regular {} operations)
    (once : ∀ operation ∈ operations,
      operation ≠ .onFinder .rollback ∧ operation ≠ .onWalker .rollback)
    {field : Nat} {slot : FieldSlot} (known : layout.fields[field]? = some slot)
    (indexed : slot.attrs.indexed = true) (value : Value) :
    let now := start.after operations
    ∃ offsets, now.withValue field value = .ok offsets ∧ offsets.Pairwise (· < ·) ∧
      ∀ offset, offset ∈ offsets ↔ offset ∈ now.contents.occupied ∧
        (offset, field) ∈ (start.noted {} operations).now.given ∧
        (now.finder.onto now.buffer offset).read now.memory field = .ok value := by
  intro now
  obtain ⟨packed, room⟩ := Layout.build_wide built wide
  have upheld := create_upheld created packed room
  have framed := after_framed upheld.formed operations
  have formed : now.Formed := after_formed start operations upheld.formed
  have reflects : now.Reflects now.bytes now.contents (start.noted {} operations).now :=
    regular_reflects operations upheld (create_reflects created) regular once
  have column : now.layout.fields[field]? = some slot := by
    obtain ⟨_, same, made⟩ := create_ok created
    cases same
    rw [framed.layout, made.shape]
    exact known
  obtain ⟨index, member, rfl⟩ := mem_of_indexed formed.counted column indexed
  refine ⟨index.offsetsOf value, (with_value_ok formed).mpr ⟨index, member, rfl, rfl⟩,
    ValueIndex.offsets_of_ascending index value, fun offset => ?_⟩
  rw [ValueIndex.mem_offsets_of, (reflects.paired index member).agree,
    reflects.agree index member]
  constructor
  · intro shown
    obtain ⟨given, held⟩ := shown
    have occupied := reflects.known _ given
    exact ⟨occupied, given, (held_at_read formed occupied column).mp held⟩
  · intro shown
    obtain ⟨occupied, given, read⟩ := shown
    exact ⟨given, (held_at_read formed occupied column).mpr read⟩

-- The value was given to the field before the rollback, and the bytes were brought back by it.
theorem undone_write_not_listed :
    ∃ start, create Memory.empty (some pairLayout) 2 {} = .ok start ∧
      let earlier : List TableOperation := [.append 1, .begin]
      let write : TableOperation := .onFinder (.write 1 (.int32 5))
      let run := earlier ++ [write, .rollback, .seekKey 1]
      let now := start.after run
      start.Regular {} run ∧
      (start.after earlier).answer write = .ok (.record (.truth true)) ∧
      0 ∈ now.contents.occupied ∧ now.finder.place = some ⟨now.buffer, 0⟩ ∧
      now.finder.read now.memory 1 = .ok (.int32 0) ∧
      now.withValue 1 (.int32 0) = .ok [] := by
  refine ⟨_, rfl, ⟨trivial, trivial, ⟨rfl, ?_⟩, trivial, trivial, trivial⟩, ?_, ?_, ?_, ?_, ?_⟩
  · decide +kernel
  · decide +kernel
  · decide +kernel
  · decide +kernel
  · decide +kernel
  · decide +kernel

theorem pair_run_lists :
    ∃ start, create Memory.empty (some pairLayout) 2 {} = .ok start ∧
      let run : List TableOperation :=
        [.append 1, .onFinder (.write 1 (.int32 5)), .begin, .append 2, .rollback]
      start.Regular {} run ∧
      ∃ offsets, (start.after run).withValue 1 (.int32 5) = .ok offsets ∧
        0 ∈ offsets ∧ 17 ∉ offsets := by
  obtain ⟨start, created, regular, given, here, gone, read⟩ : ∃ start,
      create Memory.empty (some pairLayout) 2 {} = .ok start ∧
      let run : List TableOperation :=
        [.append 1, .onFinder (.write 1 (.int32 5)), .begin, .append 2, .rollback]
      let now := start.after run
      start.Regular {} run ∧ (0, 1) ∈ (start.noted {} run).now.given ∧
      0 ∈ now.contents.occupied ∧ 17 ∉ now.contents.occupied ∧
      (now.finder.onto now.buffer 0).read now.memory 1 = .ok (.int32 5) := by
    refine ⟨_, rfl, ⟨trivial, ⟨rfl, ?_⟩, trivial, trivial, trivial, trivial⟩, ?_, ?_, ?_, ?_⟩
    · decide +kernel
    · decide +kernel
    · decide +kernel
    · decide +kernel
    · decide +kernel
  obtain ⟨offsets, listed, -, exact_offsets⟩ :=
    @regular_with_value _ _ _ _ _ _ pair_built created (by decide) _ regular
      (by decide) 1 _ rfl rfl (.int32 5)
  refine ⟨start, created, regular, offsets, listed, ?_, ?_⟩
  · exact (exact_offsets 0).mpr ⟨here, given, read⟩
  · intro member
    exact gone ((exact_offsets 17).mp member).1

end Table

end RecordStore
